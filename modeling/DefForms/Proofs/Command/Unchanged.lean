import DefForms.Command.Run
import DefForms.Proofs.Definition.Expansion
import DefForms.Proofs.LineDiff.Lines
import DefForms.Proofs.Reader.Reading

set_option autoImplicit false

/-! # Expansion does not show

A program has the same surface text before and after its definitions are expanded, and a text has no
differences from itself (`LineDiff.lineDiff_self`). So a run that shows what expansion changes in a
program prints every line as unchanged. -/

namespace DefForms

/-- Expanded trees have the surface text of the trees. So a run that shows what expansion changes in
    the surface text of a source prints the lines of this text, each one behind the mark of a line
    that is kept. -/
theorem Command.render_expandDefinitions :
    (∀ nodes out : List Node, expandDefinitions nodes = .ok out →
        Format.render out .pretty = Format.render nodes .pretty)
      ∧ ∀ (request : Command.Request) (text : String) (out : List Node),
          request.action = .expand true → request.format = .pretty →
          Source.expanded ⟨request.file, text⟩ = .ok out →
          (Command.run request (.ok text)).failure = none
            ∧ (Command.run request (.ok text)).output
              = (LineDiff.linesOf (Format.render out .pretty)).flatMap
                (fun line => ' ' :: (line.toList ++ ['\n']))
            ∧ ∀ line ∈ LineDiff.linesOf (Format.render out .pretty), '\n' ∉ line.toList := by
  have hrender : ∀ nodes out : List Node, expandDefinitions nodes = .ok out →
      Format.render out .pretty = Format.render nodes .pretty :=
    fun nodes out h => surfaceLines_expandDefinitions h
  refine ⟨hrender, ?_⟩
  intro request text out haction hformat hexpanded
  obtain ⟨nodes, hnodes, hout⟩ := Source.expanded_eq_ok_iff.1 hexpanded
  have hrun : Command.run request (.ok text)
      = ⟨LineDiff.render (LineDiff.lineDiff (Format.render nodes .pretty)
          (Format.render out .pretty)),
        Command.shown request.verbose (Command.readStatus nodes ++ Command.expandStatus out),
        none⟩ := by
    simp [Command.run, Command.runOn, hnodes, haction, hformat, Source.expand, hout,
      Command.expandedOutput]
  rw [hrun]
  refine ⟨rfl, ?_, fun line hline => LineDiff.newline_notMem_of_mem_linesOf hline⟩
  simp only [hrender nodes out hout, LineDiff.lineDiff_self, LineDiff.render, List.flatMap_map,
    LineDiff.Mark.symbol]

theorem Command.render_expandDefinitions_of_source :
    Format.render [.definition 1 ⟨1, "f"⟩ ⟨1, []⟩ [.int ⟨2, "1"⟩], .int ⟨2, "2"⟩] .pretty
        = Format.render [.call 1 (.term ⟨1, "def"⟩) [.term ⟨1, "f"⟩, .paramList ⟨1, []⟩,
          .int ⟨2, "1"⟩], .int ⟨2, "2"⟩] .pretty
      ∧ (Command.run ⟨false, .expand true, "s", .pretty⟩ (.ok "(def f []\n1)2")).failure = none
      ∧ (Command.run ⟨false, .expand true, "s", .pretty⟩ (.ok "(def f []\n1)2")).output
        = " (def f [] 1)\n 2\n".toList := by
  have hexpands : expandDefinitions [.call 1 (.term ⟨1, "def"⟩) [.term ⟨1, "f"⟩,
      .paramList ⟨1, []⟩, .int ⟨2, "1"⟩], .int ⟨2, "2"⟩]
        = .ok [.definition 1 ⟨1, "f"⟩ ⟨1, []⟩ [.int ⟨2, "1"⟩], .int ⟨2, "2"⟩] := rfl
  have hexpanded : Source.expanded ⟨"s", "(def f []\n1)2"⟩
      = .ok [.definition 1 ⟨1, "f"⟩ ⟨1, []⟩ [.int ⟨2, "1"⟩], .int ⟨2, "2"⟩] := by
    decide +kernel
  obtain ⟨hfailure, houtput, -⟩ := Command.render_expandDefinitions.2
    ⟨false, .expand true, "s", .pretty⟩ _ _ rfl rfl hexpanded
  exact ⟨Command.render_expandDefinitions.1 _ _ hexpands, hfailure,
    houtput.trans (by decide +kernel)⟩

end DefForms
