import DefForms.Proofs.Bytes.Lines
import DefForms.Proofs.Definition.Blame
import DefForms.Proofs.Reader.Places

set_option autoImplicit false

/-! # What a fault of a definition marks in the source

Expansion knows the line of a call and no more. The span is found again in the source, where it is the
whole line with this number. The call is still marked: the tree was read with the lines of its places
(`Places`), the call that expansion reports is the one at the same position in the tree of places, and
its opening parenthesis stands on the line that is marked (`expanded_error_span`). -/

namespace DefForms

/-! ## Calls and their lines -/

theorem term_of_relined {f : Nat → Nat} {node : Node} {name : Term}
    (h : node.relined f = .term name) : ∃ term, node = .term term := by
  cases node with
  | term term => exact ⟨term, rfl⟩
  | _ => simp [Node.relined] at h

theorem paramList_of_relined {f : Nat → Nat} {node : Node} {params : ParamList}
    (h : node.relined f = .paramList params) : ∃ list, node = .paramList list := by
  cases node with
  | paramList list => exact ⟨list, rfl⟩
  | _ => simp [Node.relined] at h

theorem formDefinition_relinedAll {f : Nat → Nat} {args : List Node} :
    FormDefinition (Node.relinedAll f args) ↔ FormDefinition args := by
  constructor
  · rintro ⟨name, params, body, hargs⟩
    rw [Node.relinedAll_eq_map] at hargs
    obtain ⟨first, rest, rfl, hfirst, hrest⟩ := List.map_eq_cons_iff.1 hargs
    obtain ⟨second, behind, rfl, hsecond, -⟩ := List.map_eq_cons_iff.1 hrest
    obtain ⟨term, rfl⟩ := term_of_relined hfirst
    obtain ⟨list, rfl⟩ := paramList_of_relined hsecond
    exact ⟨term, list, behind, rfl⟩
  · rintro ⟨name, params, body, rfl⟩
    exact ⟨name.relined f, params.relined f, Node.relinedAll f body, rfl⟩

theorem definitionsFormed_of_relined {f : Nat → Nat} {nodes : List Node}
    (h : DefinitionsFormed (nodes.map (Node.relined f))) : DefinitionsFormed nodes := by
  intro line keyword args hcall hkeyword
  have hmem := List.mem_map_of_mem (f := Node.relined f) hcall
  exact formDefinition_relinedAll.1 (h _ _ _ hmem hkeyword)

theorem call_of_relined {f : Nat → Nat} {node : Node} {line : Nat} {keyword : Term}
    {args : List Node} (h : node.relined f = .call line (.term keyword) args) :
    ∃ place term inner, node = .call place (.term term) inner ∧ line = f place
      ∧ keyword.text = term.text ∧ args = Node.relinedAll f inner := by
  cases node with
  | call place head inner =>
      cases head with
      | term term =>
          simp only [Node.relined, Head.relined, Node.call.injEq, Head.term.injEq] at h
          obtain ⟨rfl, rfl, rfl⟩ := h
          exact ⟨place, term, inner, rfl, rfl, rfl, rfl⟩
      | operator op => simp [Node.relined, Head.relined] at h
  | _ => simp [Node.relined] at h

/-! ## The call that is blamed -/

theorem Blames.not_formDefinition {line : Nat} {args : List Node} {diagnostic : Diagnostic}
    (h : Blames line args diagnostic) : ¬ FormDefinition args := by
  rintro ⟨name, params, body, rfl⟩
  cases h with
  | noName hname => exact hname name (.paramList params :: body) rfl
  | noParams hparams => exact hparams params body rfl

/-- A fault of a definition is reported with the line of the call and without a source. -/
theorem Blames.diagnostic_eq {line : Nat} {args : List Node} {diagnostic : Diagnostic}
    (h : Blames line args diagnostic) :
    ∃ message help, diagnostic = .atLine .validation message (some line) help := by
  cases h with
  | noName | noParams => exact ⟨_, _, rfl⟩

/-- The first call in post-order that has the keyword but not the arguments of a definition is at this
    place. -/
def FirstMalformed (places : List Node) (place : Nat) : Prop :=
  ∃ before keyword args after,
    Node.postorderAll places = before ++ .call place (.term keyword) args :: after
      ∧ DefinitionsFormed before ∧ keyword.text = definitionKeyword ∧ ¬ FormDefinition args

/-- What expansion reports about a tree with the lines of some places is about the first malformed
    call among the places. -/
theorem exists_firstMalformed {f : Nat → Nat} {places : List Node} {diagnostic : Diagnostic}
    (h : expandDefinitions (places.map (Node.relined f)) = .error diagnostic) :
    ∃ place message help, FirstMalformed places place
      ∧ diagnostic = .atLine .validation message (some (f place)) help := by
  obtain ⟨before, node, after, hnodes, hnode, hbefore⟩ :=
    List.findSome?_eq_some_iff.1 (expandDefinitions_eq_error_iff.1 h)
  obtain ⟨line, keyword, args, rfl, hkeyword, hblames⟩ := blames_of_complaint hnode
  -- the list of the places is cut where that of the nodes is
  rw [← Node.relinedAll_eq_map, postorderAll_relinedAll, List.map_eq_append_iff] at hnodes
  obtain ⟨front, back, hplaces, rfl, hback⟩ := hnodes
  obtain ⟨found, rest, rfl, hfound, -⟩ := List.map_eq_cons_iff.1 hback
  obtain ⟨place, term, inner, rfl, rfl, hterm, rfl⟩ := call_of_relined hfound
  obtain ⟨message, help, hdiagnostic⟩ := hblames.diagnostic_eq
  refine ⟨place, message, help, ⟨front, term, inner, rest, hplaces, ?_, ?_, ?_⟩, hdiagnostic⟩
  · exact definitionsFormed_of_relined (definitionsFormed_iff.2 hbefore)
  · rw [← hterm, hkeyword]
  · exact fun hform => hblames.not_formDefinition (formDefinition_relinedAll.2 hform)

end DefForms

namespace DefForms.Reader

/-- Every call among the places starts with an opening parenthesis of the source. -/
theorem standsAt_call {source : String} {offset : Nat} {text : List Char} {places : List Node}
    (h : Places offset text places) (hstands : StandsAt source offset text) {place : Nat}
    {head : Head} {args : List Node} (hcall : .call place head args ∈ Node.postorderAll places) :
    StandsAt source place ['('] := by
  induction h with
  | nil offset => simp [Node.postorderAll] at hcall
  | @blank offset c rest places hc _ ih =>
      have hblank : StandsAt source offset ([c] ++ rest) := hstands
      exact ih hblank.behind hcall
  | @leaf offset word rest leaf places hword hends _ ih =>
      rcases List.mem_append.1 hcall with hleaf | hrest
      · cases hword with
        | int | float | operator | term => simp [Node.postorder] at hleaf
      · exact ih hstands.behind hrest
  | @list offset inner rest params places _ _ ih =>
      have hbehind : StandsAt source offset ('[' :: (inner ++ [']']) ++ rest) := by
        simpa using hstands
      rcases List.mem_append.1 hcall with hlist | hrest
      · simp [Node.postorder, ParamList.postorder] at hlist
      · exact ih hbehind.behind hrest
  | @call offset blanks word inner rest head' args' places hblanks hhead hends _ _ ihinner ih =>
      have hopen : StandsAt source offset (['('] ++ (blanks ++ (word ++ inner) ++ ')' :: rest)) :=
        hstands
      have hargs : StandsAt source offset ('(' :: (blanks ++ word) ++ (inner ++ ')' :: rest)) := by
        simpa using hstands
      have hbehind : StandsAt source offset
          ('(' :: (blanks ++ (word ++ inner) ++ [')']) ++ rest) := by
        simpa using hstands
      rw [Node.postorderAll, Node.postorder, List.mem_append, List.mem_append,
        List.mem_singleton] at hcall
      rcases hcall with (hinner | hself) | hrest
      · exact ihinner hargs.behind.front hinner
      · obtain ⟨rfl, -, -⟩ := Node.call.inj hself
        exact hopen.front
      · exact ih hbehind.behind hrest

end DefForms.Reader

namespace DefForms.Source

open Reader

/-- The tree that is read from a source is the tree of its places with their lines. -/
theorem nodes_eq_of_places {source : Source} {nodes places : List Node}
    (hread : source.nodes = .ok nodes) (hplaces : Places 0 source.text.toList places) :
    nodes = places.map (Node.relined (lineAt source.text)) := by
  have hspells := spells_of_places hplaces (standsAt_start source.text)
  exact (eq_of_spells (program_eq_ok_iff.2 (nodes_eq_ok_iff.1 hread)) hspells).symm

/-- A fault of expansion marks the line of the first malformed call among the places. -/
theorem expand_error_marks {source : Source} {nodes : List Node} {diagnostic : Diagnostic}
    (hread : source.nodes = .ok nodes) (h : source.expand nodes = .error diagnostic)
    {places : List Node} (hplaces : Places 0 source.text.toList places) :
    ∃ place span message help, FirstMalformed places place ∧ charAt? source.text place = some '('
      ∧ Span.ofLine source.text (lineAt source.text place) = some span
      ∧ newlineByte ∉ bytesIn source.text span ∧ span.start ≤ place ∧ place < span.stop
      ∧ diagnostic
        = ⟨.validation, message, some (lineAt source.text place), some source, some span, help⟩ := by
  rw [nodes_eq_of_places hread hplaces, Source.expand] at h
  split at h
  · simp at h
  · next fault hfault =>
      obtain rfl := Except.error.inj h
      obtain ⟨place, message, help, hfirst, rfl⟩ := exists_firstMalformed hfault
      obtain ⟨before, keyword, args, after, hcall, -⟩ := id hfirst
      have hmem : .call place (.term keyword) args ∈ Node.postorderAll places := by
        simp [hcall]
      obtain ⟨front, back, htext, rfl⟩ := standsAt_call hplaces (standsAt_start source.text) hmem
      obtain ⟨span, hspan, hnewline, hwithin⟩ := exists_line_around htext (by decide)
      refine ⟨byteSize front, span, message, help, hfirst, ?_, hspan, hnewline, hwithin.1, ?_, ?_⟩
      · rw [charAt?_of_append htext]
        rfl
      · exact hwithin.2
      · rw [← hspan]
        rfl

/-- A source that cannot be read fails in expansion as it does in reading. In a source that is read, the
    fault that expansion reports names a line and marks the whole of it, and on this line stands the
    opening parenthesis of the first malformed call in post-order. -/
theorem expanded_error_span (source : Source) :
    (∀ diagnostic, source.nodes = .error diagnostic → source.expanded = .error diagnostic)
      ∧ ∀ nodes diagnostic, source.nodes = .ok nodes → source.expanded = .error diagnostic →
        diagnostic.category = .validation ∧ diagnostic.source = some source
          ∧ ∃ line span, diagnostic.line = some line ∧ diagnostic.span = some span
            ∧ Span.ofLine source.text line = some span
            ∧ newlineByte ∉ bytesIn source.text span
            ∧ diagnostic.label? = some ⟨diagnostic.message, span.start, span.stop - span.start⟩
            ∧ (∃ places, Places 0 source.text.toList places)
            ∧ ∀ places, Places 0 source.text.toList places →
              nodes = places.map (Node.relined (lineAt source.text))
                ∧ ∃ place, FirstMalformed places place ∧ charAt? source.text place = some '('
                  ∧ span.start ≤ place ∧ place < span.stop := by
  constructor
  · intro diagnostic h
    rw [Source.expanded, h]
  · intro nodes diagnostic hread hexpand
    rw [Source.expanded, hread] at hexpand
    obtain ⟨places, hplaces⟩ := exists_places (nodes_eq_ok_iff.1 hread).1 0
    obtain ⟨place, span, message, help, -, -, hspan, hnewline, hstart, hstop, rfl⟩ :=
      expand_error_marks hread hexpand hplaces
    refine ⟨rfl, rfl, _, span, rfl, rfl, hspan, hnewline, ?_, ⟨places, hplaces⟩, ?_⟩
    · rw [← width_of_lt (Nat.lt_of_le_of_lt hstart hstop)]
      rfl
    · intro places' hplaces'
      refine ⟨nodes_eq_of_places hread hplaces', ?_⟩
      obtain ⟨place', span', _, _, hfirst, hchar, -, -, hstart', hstop', hsame⟩ :=
        expand_error_marks hread hexpand hplaces'
      simp only [Diagnostic.mk.injEq, Option.some.injEq, true_and] at hsame
      obtain ⟨-, -, rfl, -⟩ := hsame
      exact ⟨place', hfirst, hchar, hstart', hstop'⟩

theorem expanded_error_span_of_nested :
    Source.expanded ⟨"s", "(def\n$)"⟩ = .error ⟨.parse, "unexpected `$`", some 2,
        some ⟨"s", "(def\n$)"⟩, some ⟨5, 6⟩, none⟩
      ∧ Source.nodes ⟨"s", "\n(def f\n (def 1 2) [])"⟩ = .ok [.call 2 (.term ⟨2, "def"⟩)
        [.term ⟨2, "f"⟩, .call 3 (.term ⟨3, "def"⟩) [.int ⟨3, "1"⟩, .int ⟨3, "2"⟩],
          .paramList ⟨3, []⟩]]
      ∧ Source.expanded ⟨"s", "\n(def f\n (def 1 2) [])"⟩ = .error ⟨.validation,
        "expected a valid name after `def`, found Int `1`", some 3,
        some ⟨"s", "\n(def f\n (def 1 2) [])"⟩, some ⟨8, 22⟩, some definitionUsage⟩
      ∧ ∀ places, Places 0 "\n(def f\n (def 1 2) [])".toList places →
        ∃ place, FirstMalformed places place
          ∧ charAt? "\n(def f\n (def 1 2) [])" place = some '(' ∧ 8 ≤ place ∧ place < 22 := by
  have hbad : Source.nodes ⟨"s", "(def\n$)"⟩ = .error ⟨.parse, "unexpected `$`", some 2,
      some ⟨"s", "(def\n$)"⟩, some ⟨5, 6⟩, none⟩ := by
    decide +kernel
  have hread : Source.nodes ⟨"s", "\n(def f\n (def 1 2) [])"⟩ = .ok [.call 2 (.term ⟨2, "def"⟩)
      [.term ⟨2, "f"⟩, .call 3 (.term ⟨3, "def"⟩) [.int ⟨3, "1"⟩, .int ⟨3, "2"⟩],
        .paramList ⟨3, []⟩]] := by
    decide +kernel
  have hexpand : Source.expanded ⟨"s", "\n(def f\n (def 1 2) [])"⟩ = .error ⟨.validation,
      "expected a valid name after `def`, found Int `1`", some 3,
      some ⟨"s", "\n(def f\n (def 1 2) [])"⟩, some ⟨8, 22⟩, some definitionUsage⟩ := by
    decide +kernel
  obtain ⟨-, -, line, span, -, hspan, -, -, -, -, hplaces⟩ :=
    (expanded_error_span ⟨"s", "\n(def f\n (def 1 2) [])"⟩).2 _ _ hread hexpand
  obtain rfl := Option.some.inj hspan
  exact ⟨(expanded_error_span _).1 _ hbad, hread, hexpand,
    fun places h => (hplaces places h).2⟩

end DefForms.Source
