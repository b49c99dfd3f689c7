import DefForms.Proofs.Bytes.Lines
import DefForms.Proofs.Reader.FirstFault

set_option autoImplicit false

/-! # What a failure marks in the source

The line and the span of a failure are read off the cursor, each by its own count. They agree with
each other and with the lines of the source: a failure marks a part of the line that it names
(`nodes_error_span`). -/

namespace DefForms.Source

open Reader

/-- A failure of reading is about the source that was read. It marks some characters of one line, and
    this is the line it names. Nothing is left for a source that is attached later to change. -/
theorem nodes_error_span {source : Source} {diagnostic : Diagnostic}
    (h : source.nodes = .error diagnostic) :
    diagnostic.category = .parse ∧ diagnostic.source = some source
      ∧ (∃ line span, diagnostic.line = some line ∧ diagnostic.span = some span
        ∧ span.MarksLine source.text line
        ∧ diagnostic.label? = some ⟨diagnostic.message, span.start, span.stop - span.start⟩)
      ∧ ∀ other, diagnostic.attach other = diagnostic := by
  obtain ⟨failure, herror, rfl⟩ := nodes_eq_error_iff.1 h
  obtain ⟨before, bad, after, hfault⟩ := nodesFault (Nat.zero_le _) (program_eq_error_iff.1 herror)
  have hplace := hfault.located
  have hmarks := marksLine_of_append hplace.text_eq hplace.bad_ne hplace.newline_notMem
  -- the cursor counts from byte 0 on line 1
  have hline : failure.line = lineAt source.text (byteSize before) := by
    rw [hplace.failure_eq, Failure.on, Cursor.past_line, lineAt_of_append hplace.text_eq]
    rfl
  have hspan : failure.span = ⟨byteSize before, byteSize before + byteSize bad⟩ := by
    rw [hplace.failure_eq, Failure.on, Cursor.span, Cursor.past_offset]
    simp [Cursor.start]
  refine ⟨rfl, rfl, ⟨failure.line, failure.span, rfl, rfl, ?_, ?_⟩, fun other => rfl⟩
  · rw [hline, hspan]
    exact hmarks
  · have hlt : failure.span.start < failure.span.stop := by
      rw [hspan]
      exact hmarks.start_lt_stop
    rw [← width_of_lt hlt]
    rfl

theorem nodes_error_span_of_letter :
    Source.nodes ⟨"s", "(f\n [é])"⟩ = .error ⟨.parse, "unexpected `é`", some 2,
        some ⟨"s", "(f\n [é])"⟩, some ⟨5, 7⟩, none⟩
      ∧ Span.MarksLine "(f\n [é])" 2 ⟨5, 7⟩ := by
  have herror : Source.nodes ⟨"s", "(f\n [é])"⟩ = .error ⟨.parse, "unexpected `é`", some 2,
      some ⟨"s", "(f\n [é])"⟩, some ⟨5, 7⟩, none⟩ := by
    decide +kernel
  obtain ⟨-, -, ⟨line, span, hline, hspan, hmarks, -⟩, -⟩ := nodes_error_span herror
  obtain rfl := Option.some.inj hline
  obtain rfl := Option.some.inj hspan
  exact ⟨herror, hmarks⟩

end DefForms.Source
