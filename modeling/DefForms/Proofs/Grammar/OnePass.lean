import DefForms.Proofs.Grammar.Derivation

set_option autoImplicit false

/-! # One pass with a stack

The usual way to parse the grammar: one pass over the tokens, with a stack of the calls that are
open. `onePass` never looks ahead for a closing delimiter; it refuses a form when `maxDepth` are open
already. It accepts exactly the derivable token lists whose nodes are not nested deeper than that
(`onePass_eq_some_iff`).

What the pass has read so far is described by `Holds`; `holds_step` says what one token does to it.
The last section compares the three ways to say what a program is: reading with a search for the
closing delimiters, derivation, and the pass. -/

namespace DefForms.Grammar

open DefForms.Reader

/-! ## The pass -/

/-- An open call: the nodes in front of it and its head. -/
structure Frame where
  before : List Node
  head : Head

/-- What has been read: the open calls, innermost first, and the nodes that are complete inside the
    innermost one. -/
inductive State where
  /-- Between two nodes. -/
  | nodes (stack : List Frame) (found : List Node)
  /-- Behind the parenthesis that opens a call. -/
  | head (stack : List Frame) (found : List Node)
  /-- Inside a parameter list. -/
  | list (stack : List Frame) (found : List Node) (params : List Param)

namespace State

/-- Read one token. -/
def step : State → Token → Option State
  | .nodes stack found, .callStart =>
      if stack.length < maxDepth then some (.head stack found) else none
  | .nodes stack found, .listStart =>
      if stack.length < maxDepth then some (.list stack found []) else none
  | .nodes [] _, .callEnd => none
  | .nodes (frame :: stack) found, .callEnd =>
      some (.nodes stack (frame.before ++ [.call 0 frame.head found]))
  | .nodes stack found, token => token.leaf?.map fun node => .nodes stack (found ++ [node])
  | .head stack found, token => token.head?.map fun head => .nodes (⟨found, head⟩ :: stack) []
  | .list stack found params, .listEnd => some (.nodes stack (found ++ [.paramList ⟨0, params⟩]))
  | .list stack found params, token =>
      token.param?.map fun param => .list stack found (params ++ [param])

/-- Read all tokens. -/
def run : State → List Token → Option State
  | state, [] => some state
  | state, token :: rest =>
    match state.step token with
    | none => none
    | some next => next.run rest

end State

/-- The nodes of a token list, if it is accepted. -/
def onePass (tokens : List Token) : Option (List Node) :=
  match (State.nodes [] []).run tokens with
  | some (.nodes [] found) => some found
  | _ => none

/-! ## Derivations in a row -/

theorem derives_append {front back : List Token} {nodes more : List Node}
    (h : Derives front nodes) (hback : Derives back more) :
    Derives (front ++ back) (nodes ++ more) := by
  induction h with
  | nil => exact hback
  | leaf hleaf _ ih => exact .leaf hleaf ih
  | @list inner rest params nodes hinner _ ih =>
      rw [List.cons_append, List.append_assoc]
      exact .list hinner ih
  | @call token inner rest head args nodes hhead hinner _ _ ih =>
      rw [List.cons_append, List.cons_append, List.append_assoc]
      exact .call hhead hinner ih

theorem derivesEntries_append {front back : List Token} {params more : List Param}
    (h : DerivesEntries front params) (hback : DerivesEntries back more) :
    DerivesEntries (front ++ back) (params ++ more) := by
  induction h with
  | nil => exact hback
  | entry hparam _ ih => exact .entry hparam ih

/-- A number, an operator or a term opens and closes nothing. -/
theorem step_leaf {token : Token} {node : Node} (stack : List Frame) (found : List Node)
    (h : token.leaf? = some node) :
    (State.nodes stack found).step token = some (.nodes stack (found ++ [node])) := by
  cases token with
  | operator | number | term => simp [State.step, h]
  | callStart | callEnd | listStart | listEnd | entry => simp [Token.leaf?] at h

theorem step_param {token : Token} {param : Param} (stack : List Frame) (found : List Node)
    (params : List Param) (h : token.param? = some param) :
    (State.list stack found params).step token = some (.list stack found (params ++ [param])) := by
  cases token with
  | entry => simp [State.step, h]
  | operator | number | term | callStart | callEnd | listStart | listEnd => simp [Token.param?] at h

theorem nesting_of_token {token : Token} {node : Node} (h : token.leaf? = some node) :
    node.nesting = 0 := by
  cases token with
  | operator | term =>
      simp only [Token.leaf?, Option.some.injEq] at h
      rw [← h, Node.nesting]
  | number text =>
      simp only [Token.leaf?, Option.some.injEq] at h
      split at h
      · rw [← h, Node.nesting]
      · rw [← h, Node.nesting]
  | callStart | callEnd | listStart | listEnd | entry => simp [Token.leaf?] at h

/-! ## Everything derivable is accepted -/

theorem run_entries {tokens : List Token} {params : List Param} (h : DerivesEntries tokens params)
    (stack : List Frame) (found : List Node) (before : List Param) (more : List Token) :
    (State.list stack found before).run (tokens ++ more)
      = (State.list stack found (before ++ params)).run more := by
  induction h generalizing before with
  | nil => simp
  | entry hparam _ ih =>
      rw [List.cons_append, State.run, step_param stack found before hparam]
      simp only [ih, List.append_assoc, List.singleton_append]

/-- Derivable tokens are read as the nodes that they derive, if these fit below the open calls. -/
theorem run_derives {tokens : List Token} {nodes : List Node} (h : Derives tokens nodes)
    (stack : List Frame) (found : List Node) (more : List Token)
    (hfits : stack.length + Node.nestingAll nodes ≤ maxDepth) :
    (State.nodes stack found).run (tokens ++ more)
      = (State.nodes stack (found ++ nodes)).run more := by
  induction h generalizing stack found more with
  | nil => simp
  | leaf hleaf _ ih =>
      rw [Node.nestingAll] at hfits
      rw [List.cons_append, State.run, step_leaf stack found hleaf]
      simp only
      rw [ih stack _ more (by omega), List.append_assoc, List.singleton_append]
  | @list inner rest params nodes hinner _ ih =>
      rw [Node.nestingAll, Node.nesting] at hfits
      rw [List.cons_append, List.append_assoc, State.run, State.step, if_pos (by omega)]
      simp only
      rw [run_entries hinner, List.nil_append, List.cons_append, State.run, State.step]
      simp only
      rw [ih stack _ more (by omega), List.append_assoc, List.singleton_append]
  | @call token inner rest head args nodes hhead _ _ ihinner ih =>
      rw [Node.nestingAll, Node.nesting] at hfits
      -- the arguments are read with the call on the stack
      have hinside := ihinner (⟨found, head⟩ :: stack) [] (.callEnd :: (rest ++ more))
        (by rw [List.length_cons]; omega)
      rw [List.nil_append] at hinside
      rw [List.cons_append, State.run, State.step, if_pos (by omega)]
      simp only
      rw [List.cons_append, State.run, State.step, hhead]
      simp only [Option.map_some, List.append_assoc, List.cons_append]
      rw [hinside, State.run, State.step]
      simp only
      rw [ih stack _ more (by omega), List.append_assoc, List.singleton_append]

/-! ## Nothing else is accepted -/

/-- The tokens were read into the state: those of each open form, and those of the nodes in front of
    it, derive what the state holds of them. -/
inductive Holds : State → List Token → Prop where
  | top {tokens : List Token} {found : List Node} (h : Derives tokens found)
      (hfits : Node.nestingAll found ≤ maxDepth) : Holds (.nodes [] found) tokens
  | call {stack : List Frame} {before found : List Node} {front inner : List Token}
      {token : Token} {head : Head} (hfront : Holds (.nodes stack before) front)
      (hhead : token.head? = some head) (h : Derives inner found)
      (hfits : stack.length + 1 + Node.nestingAll found ≤ maxDepth) :
      Holds (.nodes (⟨before, head⟩ :: stack) found) (front ++ .callStart :: token :: inner)
  | head {stack : List Frame} {found : List Node} {front : List Token}
      (hfront : Holds (.nodes stack found) front) (hfits : stack.length < maxDepth) :
      Holds (.head stack found) (front ++ [.callStart])
  | list {stack : List Frame} {found : List Node} {params : List Param} {front inner : List Token}
      (hfront : Holds (.nodes stack found) front) (hfits : stack.length < maxDepth)
      (h : DerivesEntries inner params) :
      Holds (.list stack found params) (front ++ .listStart :: inner)

/-- What is derived behind the tokens is found behind the nodes. -/
theorem holds_append {stack : List Frame} {found nodes : List Node} {tokens more : List Token}
    (h : Holds (.nodes stack found) tokens) (hmore : Derives more nodes)
    (hfits : stack.length + Node.nestingAll nodes ≤ maxDepth) :
    Holds (.nodes stack (found ++ nodes)) (tokens ++ more) := by
  cases h with
  | top h hfits' =>
      rw [List.length_nil, Nat.zero_add] at hfits
      exact .top (derives_append h hmore) (by rw [Node.nestingAll_append]; omega)
  | call hfront hhead h hfits' =>
      rw [List.length_cons] at hfits
      rw [List.append_assoc, List.cons_append, List.cons_append]
      exact .call hfront hhead (derives_append h hmore) (by rw [Node.nestingAll_append]; omega)

/-- No more than `maxDepth` calls are open. -/
theorem length_of_holds {stack : List Frame} {found : List Node} {tokens : List Token}
    (h : Holds (.nodes stack found) tokens) : stack.length ≤ maxDepth := by
  cases h with
  | top => exact Nat.zero_le _
  | call _ _ _ hfits =>
      rw [List.length_cons]
      omega

theorem holds_leaf {stack : List Frame} {found : List Node} {next : State} {tokens : List Token}
    {token : Token} {node : Node} (h : Holds (.nodes stack found) tokens)
    (hleaf : token.leaf? = some node) (hstep : (State.nodes stack found).step token = some next) :
    Holds next (tokens ++ [token]) := by
  rw [step_leaf stack found hleaf, Option.some.injEq] at hstep
  subst hstep
  refine holds_append h (.leaf hleaf .nil) ?_
  have hlength := length_of_holds h
  rw [Node.nestingAll, Node.nestingAll, nesting_of_token hleaf]
  omega

/-- What one token does. -/
theorem holds_step {state next : State} {tokens : List Token} {token : Token}
    (h : Holds state tokens) (hstep : state.step token = some next) :
    Holds next (tokens ++ [token]) := by
  cases state with
  | nodes stack found =>
      cases token with
      | callStart =>
          rw [State.step] at hstep
          split at hstep
          · next hfits =>
              cases hstep
              exact .head h hfits
          · simp at hstep
      | listStart =>
          rw [State.step] at hstep
          split at hstep
          · next hfits =>
              cases hstep
              exact .list h hfits .nil
          · simp at hstep
      | callEnd =>
          cases h with
          | top => simp [State.step] at hstep
          | @call stack before found front inner token head hfront hhead hinner hfits =>
              simp only [State.step, Option.some.injEq] at hstep
              subst hstep
              -- the call is complete and stands behind the nodes in front of it
              have hcall : Derives (.callStart :: token :: (inner ++ [.callEnd]))
                  [.call 0 head found] := .call hhead hinner .nil
              have hwhole := holds_append hfront hcall
                (by rw [Node.nestingAll, Node.nestingAll, Node.nesting]; omega)
              simpa using hwhole
      | operator | number | term => exact holds_leaf h rfl hstep
      | listEnd | entry => simp [State.step, Token.leaf?] at hstep
  | head stack found =>
      rw [State.step] at hstep
      obtain ⟨head, hhead, rfl⟩ := Option.map_eq_some_iff.1 hstep
      cases h with
      | head hfront hfits =>
          rw [List.append_assoc]
          exact .call hfront hhead .nil (by rw [Node.nestingAll]; omega)
  | list stack found params =>
      cases h with
      | @list _ _ _ front inner hfront hfits h =>
          rw [List.append_assoc, List.cons_append]
          cases token with
          | listEnd =>
              simp only [State.step, Option.some.injEq] at hstep
              subst hstep
              refine holds_append hfront (.list h .nil) ?_
              rw [Node.nestingAll, Node.nestingAll, Node.nesting]
              omega
          | entry name type =>
              have hparam : Token.param? (.entry name type) = some _ := rfl
              rw [step_param stack found params hparam, Option.some.injEq] at hstep
              subst hstep
              exact .list hfront hfits (derivesEntries_append h (.entry hparam .nil))
          | operator | number | term | callStart | callEnd | listStart =>
              simp [State.step, Token.param?] at hstep

theorem holds_run {state last : State} {tokens more : List Token} (h : Holds state tokens)
    (hrun : state.run more = some last) : Holds last (tokens ++ more) := by
  induction more generalizing state tokens with
  | nil =>
      simp only [State.run, Option.some.injEq] at hrun
      rwa [List.append_nil, ← hrun]
  | cons token more ih =>
      rw [State.run] at hrun
      split at hrun
      · simp at hrun
      · next hstep =>
          have hnext := ih (holds_step h hstep) hrun
          rwa [List.append_assoc, List.singleton_append] at hnext

/-- The pass accepts what derives nodes that are not nested too deep, and yields these nodes. -/
theorem onePass_eq_some_iff {tokens : List Token} {nodes : List Node} :
    onePass tokens = some nodes ↔ Derives tokens nodes ∧ Node.nestingAll nodes ≤ maxDepth := by
  constructor
  · intro h
    rw [onePass] at h
    split at h
    · next found hrun =>
        obtain rfl : found = nodes := Option.some.inj h
        have hlast := holds_run (.top .nil (Nat.zero_le _)) hrun
        rw [List.nil_append] at hlast
        cases hlast with
        | top hderives hfits => exact ⟨hderives, hfits⟩
    · simp at h
  · rintro ⟨hderives, hfits⟩
    have hrun := run_derives hderives [] [] [] (by rwa [List.length_nil, Nat.zero_add])
    rw [List.append_nil, List.nil_append, State.run] at hrun
    rw [onePass, hrun]

/-! ## Three ways to say what a program is -/

/-- A source is read as these nodes, up to their lines, exactly if the only division of its text into
    tokens derives them and they are not nested too deep, and exactly if the pass accepts this
    division with these nodes. -/
theorem nodes_iff_derives (source : Source) (nodes : List Node) :
    (∀ tokens tokens', Splits false source.text.toList tokens →
        Splits false source.text.toList tokens' → tokens = tokens')
      ∧ ((∃ found, source.nodes = .ok found ∧ found.map Node.unlined = nodes.map Node.unlined) ↔
        ∃ tokens, Splits false source.text.toList tokens ∧ Derives tokens (nodes.map Node.unlined)
          ∧ ∀ node ∈ nodes, node.nesting ≤ maxDepth)
      ∧ ((∃ found, source.nodes = .ok found ∧ found.map Node.unlined = nodes.map Node.unlined) ↔
        ∃ tokens, Splits false source.text.toList tokens
          ∧ onePass tokens = some (nodes.map Node.unlined)) := by
  have hderives : (∃ found, source.nodes = .ok found
      ∧ found.map Node.unlined = nodes.map Node.unlined) ↔
      ∃ tokens, Splits false source.text.toList tokens ∧ Derives tokens (nodes.map Node.unlined)
        ∧ Node.nestingAll nodes ≤ maxDepth := by
    constructor
    · rintro ⟨found, hread, hfound⟩
      obtain ⟨hspells, hfits⟩ := Source.nodes_eq_ok_iff.1 hread
      obtain ⟨tokens, hsplits, hderives⟩ := tokens_of_spells hspells loose_nil (.nil false)
      rw [List.append_nil, List.append_nil] at hsplits
      refine ⟨tokens, hsplits, hfound ▸ hderives, ?_⟩
      rwa [← Node.nestingAll_unlined, ← hfound, Node.nestingAll_unlined]
    · rintro ⟨tokens, hsplits, hderives, hfits⟩
      rw [← List.append_nil tokens] at hsplits
      -- no token is left, so only blanks are
      obtain ⟨front, back, found, htext, hback, hspells, hfound⟩ :=
        spells_of_tokens hderives 1 hsplits
      have hspells := htext ▸ spells_append_blanks hspells (splits_nil hback)
      refine ⟨found, Source.nodes_eq_ok_iff.2 ⟨hspells, ?_⟩, hfound⟩
      rwa [← Node.nestingAll_unlined, hfound, Node.nestingAll_unlined]
  refine ⟨fun _ _ => splits_unique, ?_, ?_⟩
  · simp only [hderives, Node.nestingAll_le_iff]
  · simp only [hderives, onePass_eq_some_iff, Node.nestingAll_unlined]

end DefForms.Grammar
