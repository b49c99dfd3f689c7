import DefForms.Command.Run
import DefForms.Proofs.Definition.NormalForm

set_option autoImplicit false

/-! # Runs and the stages of the program

A run does not ask for the expanded nodes of its source (`Source.expanded`): it reads the nodes,
expands them itself, counts and prints. What it leaves behind is settled by the results of the two
stages all the same (`Command.run_pipeline`). Either the whole output is printed and the run
succeeds, or nothing is printed and the failure is the one of the stage, which is the same for both
commands if it is reading that fails. -/

namespace DefForms

/-! ## Stages -/

theorem Source.expanded_eq_error_of_nodes {source : Source} {diagnostic : Diagnostic}
    (h : source.nodes = .error diagnostic) : source.expanded = .error diagnostic := by
  rw [Source.expanded, h]

theorem Source.expanded_eq_expand {source : Source} {nodes : List Node}
    (h : source.nodes = .ok nodes) : source.expanded = source.expand nodes := by
  rw [Source.expanded, h]

/-- A source holds no definitions itself, so its expanded nodes hold one for each call of the
    keyword. -/
theorem Source.countDefinitionsIn_expanded {source : Source} {nodes out : List Node}
    (hnodes : source.nodes = .ok nodes) (hout : source.expanded = .ok out) :
    Node.countDefinitionsIn out = countDefinitionCalls (Node.postorderAll nodes) := by
  obtain ⟨read, hread, hexpands⟩ := Source.expanded_eq_ok_iff.1 hout
  obtain rfl : nodes = read := Except.ok.inj (hnodes.symm.trans hread)
  obtain ⟨hformed, rfl⟩ := expandDefinitions_eq_ok_iff.1 hexpands
  obtain ⟨hspells, -⟩ := Source.nodes_eq_ok_iff.1 hnodes
  have hnone := countDefinitionsIn_of_spellable nodes (Reader.spellable_of_spells hspells)
  rw [countDefinitionsIn_promotedAll nodes hformed, hnone, Nat.zero_add]

namespace Command

/-! ## Outcomes -/

/-- The run prints this text, tells these status lines and succeeds. -/
structure Outcome.Prints (outcome : Outcome) (text : List Char) (lines : List String) : Prop where
  output : outcome.output = text
  status : outcome.status = lines
  failure : outcome.failure = none
  exitStatus : outcome.exitStatus = 0

/-- The run prints nothing, tells these status lines and reports this failure. -/
structure Outcome.Fails (outcome : Outcome) (diagnostic : Diagnostic) (lines : List String) :
    Prop where
  output : outcome.output = []
  status : outcome.status = lines
  failure : outcome.failure = some diagnostic
  exitStatus : outcome.exitStatus = 1

/-! ## Runs, stage by stage -/

section Runs

variable {request : Request} {text : String} {nodes : List Node} {diagnostic : Diagnostic}

theorem run_of_nodes_eq_error (h : Source.nodes ⟨request.file, text⟩ = .error diagnostic) :
    (run request (.ok text)).Fails diagnostic [] := by
  have hrun : run request (.ok text) = ⟨[], [], some diagnostic⟩ := by
    rw [run, runOn, h]
  rw [hrun]
  exact ⟨rfl, rfl, rfl, rfl⟩

theorem run_ast (haction : request.action = .ast)
    (h : Source.nodes ⟨request.file, text⟩ = .ok nodes) :
    (run request (.ok text)).Prints (request.format.render nodes ++ ['\n'])
      (shown request.verbose (readStatus nodes)) := by
  have hrun : run request (.ok text) = ⟨request.format.render nodes ++ ['\n'],
      shown request.verbose (readStatus nodes), none⟩ := by
    simp only [run, runOn, h, haction]
  rw [hrun]
  exact ⟨rfl, rfl, rfl, rfl⟩

variable {diff : Bool}

theorem run_expand_of_error (haction : request.action = .expand diff)
    (h : Source.nodes ⟨request.file, text⟩ = .ok nodes)
    (hexpanded : Source.expanded ⟨request.file, text⟩ = .error diagnostic) :
    (run request (.ok text)).Fails diagnostic (shown request.verbose (readStatus nodes)) := by
  rw [Source.expanded_eq_expand h] at hexpanded
  have hrun : run request (.ok text)
      = ⟨[], shown request.verbose (readStatus nodes), some diagnostic⟩ := by
    simp only [run, runOn, h, haction, hexpanded]
  rw [hrun]
  exact ⟨rfl, rfl, rfl, rfl⟩

theorem run_expand_of_ok {out : List Node} (haction : request.action = .expand diff)
    (h : Source.nodes ⟨request.file, text⟩ = .ok nodes)
    (hexpanded : Source.expanded ⟨request.file, text⟩ = .ok out) :
    (run request (.ok text)).Prints (expandedOutput request.format diff nodes out)
      (shown request.verbose (readStatus nodes ++ ["Expansion succeeded!",
        (countDefinitionCalls (Node.postorderAll nodes)).repr ++ " definition(s) expanded"])) := by
  have hcount := Source.countDefinitionsIn_expanded h hexpanded
  rw [Source.expanded_eq_expand h] at hexpanded
  have hrun : run request (.ok text) = ⟨expandedOutput request.format diff nodes out,
      shown request.verbose (readStatus nodes ++ expandStatus out), none⟩ := by
    simp only [run, runOn, h, haction, hexpanded]
  rw [hrun, expandStatus, hcount]
  exact ⟨rfl, rfl, rfl, rfl⟩

end Runs

/-- What a run of either command prints about a source, what it tells of the stages that were
    completed, and what it reports, from the nodes of the source and its expanded nodes. -/
theorem run_pipeline (verbose : Bool) (file text : String) (format : Format) :
    (∀ nodes, Source.nodes ⟨file, text⟩ = .ok nodes →
        (run ⟨verbose, .ast, file, format⟩ (.ok text)).Prints (format.render nodes ++ ['\n'])
          (if verbose then ["Parse succeeded!", nodes.length.repr ++ " top-level node(s)"] else []))
      ∧ (∀ out, Source.expanded ⟨file, text⟩ = .ok out →
        ∃ nodes, Source.nodes ⟨file, text⟩ = .ok nodes ∧ ∀ diff : Bool,
          (run ⟨verbose, .expand diff, file, format⟩ (.ok text)).Prints
            (if diff then
              LineDiff.render (LineDiff.lineDiff (format.render nodes) (format.render out))
            else format.render out ++ ['\n'])
            (if verbose then ["Parse succeeded!", nodes.length.repr ++ " top-level node(s)",
              "Expansion succeeded!",
              (countDefinitionCalls (Node.postorderAll nodes)).repr ++ " definition(s) expanded"]
            else []))
      ∧ (∀ diagnostic, Source.nodes ⟨file, text⟩ = .error diagnostic →
        Source.expanded ⟨file, text⟩ = .error diagnostic ∧ ∀ action,
          (run ⟨verbose, action, file, format⟩ (.ok text)).Fails diagnostic [])
      ∧ ∀ nodes diagnostic, Source.nodes ⟨file, text⟩ = .ok nodes →
        Source.expanded ⟨file, text⟩ = .error diagnostic → ∀ diff,
          (run ⟨verbose, .expand diff, file, format⟩ (.ok text)).Fails diagnostic
            (if verbose then ["Parse succeeded!", nodes.length.repr ++ " top-level node(s)"]
            else []) := by
  refine ⟨?_, ?_, ?_, ?_⟩
  · intro nodes hnodes
    exact run_ast rfl hnodes
  · intro out hout
    obtain ⟨nodes, hnodes, -⟩ := Source.expanded_eq_ok_iff.1 hout
    exact ⟨nodes, hnodes, fun diff => run_expand_of_ok rfl hnodes hout⟩
  · intro diagnostic hnodes
    exact ⟨Source.expanded_eq_error_of_nodes hnodes, fun action => run_of_nodes_eq_error hnodes⟩
  · intro nodes diagnostic hnodes hexpanded diff
    exact run_expand_of_error rfl hnodes hexpanded

/-- A source that is expanded, one with a definition that has no name, and one that cannot be
    read. -/
theorem run_pipeline_of_sources :
    (run ⟨true, .ast, "s", .pretty⟩ (.ok "(a)\n(def f [] 1)")).Prints
        "(a)\n(def f [] 1)\n".toList ["Parse succeeded!", "2 top-level node(s)"]
      ∧ (run ⟨true, .expand false, "s", .pretty⟩ (.ok "(a)\n(def f [] 1)")).Prints
        "(a)\n(def f [] 1)\n".toList ["Parse succeeded!", "2 top-level node(s)",
          "Expansion succeeded!", "1 definition(s) expanded"]
      ∧ (run ⟨true, .expand false, "s", .json⟩ (.ok "(def 5)")).Fails
        ⟨.validation, "expected a valid name after `def`, found Int `5`", some 1,
          some ⟨"s", "(def 5)"⟩, some ⟨0, 7⟩, some definitionUsage⟩
        ["Parse succeeded!", "1 top-level node(s)"]
      ∧ (run ⟨true, .expand false, "s", .json⟩ (.ok "(a")).Fails
        ⟨.parse, "unmatched parentheses", some 1, some ⟨"s", "(a"⟩, some ⟨0, 1⟩, none⟩ [] := by
  have hread : Source.nodes ⟨"s", "(a)\n(def f [] 1)"⟩ = .ok [.call 1 (.term ⟨1, "a"⟩) [],
      .call 2 (.term ⟨2, "def"⟩) [.term ⟨2, "f"⟩, .paramList ⟨2, []⟩, .int ⟨2, "1"⟩]] := by
    decide +kernel
  have hexpanded : Source.expanded ⟨"s", "(a)\n(def f [] 1)"⟩ = .ok [.call 1 (.term ⟨1, "a"⟩) [],
      .definition 2 ⟨2, "f"⟩ ⟨2, []⟩ [.int ⟨2, "1"⟩]] := by
    decide +kernel
  have hnameless : Source.nodes ⟨"s", "(def 5)"⟩
      = .ok [.call 1 (.term ⟨1, "def"⟩) [.int ⟨1, "5"⟩]] := by
    decide +kernel
  have hrefused : Source.expanded ⟨"s", "(def 5)"⟩
      = .error ⟨.validation, "expected a valid name after `def`, found Int `5`", some 1,
        some ⟨"s", "(def 5)"⟩, some ⟨0, 7⟩, some definitionUsage⟩ := by
    decide +kernel
  have hopen : Source.nodes ⟨"s", "(a"⟩
      = .error ⟨.parse, "unmatched parentheses", some 1, some ⟨"s", "(a"⟩, some ⟨0, 1⟩, none⟩ := by
    decide +kernel
  obtain ⟨hast, hexpand, -, -⟩ := run_pipeline true "s" "(a)\n(def f [] 1)" .pretty
  obtain ⟨nodes, hnodes, hprints⟩ := hexpand _ hexpanded
  obtain rfl := Except.ok.inj (hread.symm.trans hnodes)
  obtain ⟨-, -, -, hfails⟩ := run_pipeline true "s" "(def 5)" .json
  obtain ⟨-, -, hnothing, -⟩ := run_pipeline true "s" "(a" .json
  exact ⟨hast _ hread, hprints false, hfails _ _ hnameless hrefused false,
    (hnothing _ hopen).2 (.expand false)⟩

end Command

end DefForms
