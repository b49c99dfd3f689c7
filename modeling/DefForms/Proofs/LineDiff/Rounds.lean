import DefForms.LineDiff

set_option autoImplicit false

/-! # Merging in rounds

Two texts can be merged along common lines in rounds. A round takes the lines that all three begin
with, then the lines of the first text up to the next common line, then those of the second, and
gives each of the three as one chunk unless it is empty. Rounds go on as long as one of the texts has
lines left, and a round that takes no line would be repeated for ever.

If the common lines stand in both texts in their order, each round takes a line and leaves the rest
of them standing in what is left (`Unmerged.size_next_lt`, `Unmerged.Embedded.next`). So the rounds
end, and their chunks hold the changes of `merge` (`Unmerged.exists_rounds_eq_some`). -/

namespace DefForms.LineDiff

variable {α : Type}

/-- Lines with one mark that are shown together. -/
structure Chunk (α : Type) where
  mark : Mark
  lines : List α

def Chunk.changes (chunk : Chunk α) : List (Mark × α) :=
  chunk.lines.map fun line => (chunk.mark, line)

/-- What is left of two texts that are being merged, and of their common lines. -/
structure Unmerged (α : Type) where
  before : List α
  after : List α
  common : List α

/-- The number of lines that are left to be taken. -/
def Unmerged.size (left : Unmerged α) : Nat := left.before.length + left.after.length

/-- The common lines stand in both texts in their order. -/
structure Unmerged.Embedded (left : Unmerged α) : Prop where
  before : left.common.Sublist left.before
  after : left.common.Sublist left.after

variable [DecidableEq α]

/-- The lines that all three lists begin with. -/
def takeShared : List α → List α → List α → List α
  | line :: rest, other :: others, shared :: more =>
    if line = shared ∧ other = shared then line :: takeShared rest others more else []
  | _, _, _ => []

/-- The line is not the next of the common lines. -/
def isOwn (common : List α) (line : α) : Bool := common.head? ≠ some line

namespace Unmerged

/-! ## A round -/

def shared (left : Unmerged α) : List α := takeShared left.before left.after left.common

def dropShared (left : Unmerged α) : Unmerged α :=
  ⟨left.before.drop left.shared.length, left.after.drop left.shared.length,
    left.common.drop left.shared.length⟩

def removed (left : Unmerged α) : List α := left.before.takeWhile (isOwn left.common)

def dropRemoved (left : Unmerged α) : Unmerged α :=
  { left with before := left.before.dropWhile (isOwn left.common) }

def added (left : Unmerged α) : List α := left.after.takeWhile (isOwn left.common)

def dropAdded (left : Unmerged α) : Unmerged α :=
  { left with after := left.after.dropWhile (isOwn left.common) }

/-- The chunks of a round. -/
def chunks (left : Unmerged α) : List (Chunk α) :=
  [⟨.keep, left.shared⟩, ⟨.remove, left.dropShared.removed⟩,
    ⟨.add, left.dropShared.dropRemoved.added⟩].filter fun chunk => chunk.lines ≠ []

/-- What a round leaves. -/
def next (left : Unmerged α) : Unmerged α := left.dropShared.dropRemoved.dropAdded

/-- The chunks of all rounds, or nothing if the rounds never end. -/
def rounds (left : Unmerged α) : Option (List (Chunk α)) :=
  if left.size = 0 then some []
  else if left.next.size < left.size then left.next.rounds.map (left.chunks ++ ·)
  else none
termination_by left.size

end Unmerged

/-! ## Steps of the merge -/

theorem merge_keep (line : α) (before after common : List α) :
    merge (line :: before) (line :: after) (line :: common)
      = (.keep, line) :: merge before after common := by
  simp [merge]

theorem merge_remove {line : α} {common : List α} (h : common.head? ≠ some line)
    (before after : List α) :
    merge (line :: before) after common = (.remove, line) :: merge before after common := by
  cases common with
  | nil => cases after <;> simp [merge]
  | cons shared more =>
      have hne : line ≠ shared := fun heq => h (by rw [heq]; rfl)
      cases after <;> simp [merge, hne]

/-- A line of the second text is added only when the first one has come to the common line. -/
theorem merge_add {other : α} {before common : List α} (h : common.head? ≠ some other)
    (hbefore : ∀ line, before.head? = some line → common.head? = some line) (after : List α) :
    merge before (other :: after) common = (.add, other) :: merge before after common := by
  cases before with
  | nil => simp [merge]
  | cons line rest =>
      obtain ⟨more, rfl⟩ := List.head?_eq_some_iff.1 (hbefore line rfl)
      have hne : other ≠ line := fun heq => h (by rw [heq]; rfl)
      simp [merge, hne]

theorem merge_eq_takeShared (before after common : List α) :
    merge before after common
      = (takeShared before after common).map (fun line => (Mark.keep, line))
        ++ merge (before.drop (takeShared before after common).length)
          (after.drop (takeShared before after common).length)
          (common.drop (takeShared before after common).length) := by
  fun_induction takeShared before after common with
  | case1 line rest other others shared more heq ih =>
      obtain ⟨rfl, rfl⟩ := heq
      rw [merge_keep, ih]
      rfl
  | case2 | case3 => rfl

theorem merge_eq_takeWhile_before (before after common : List α) :
    merge before after common
      = (before.takeWhile (isOwn common)).map (fun line => (Mark.remove, line))
        ++ merge (before.dropWhile (isOwn common)) after common := by
  induction before with
  | nil => rfl
  | cons line rest ih =>
      by_cases h : common.head? = some line
      · simp [isOwn, h]
      · simp [isOwn, h, merge_remove h, ih]

theorem merge_eq_takeWhile_after {before common : List α}
    (hbefore : ∀ line, before.head? = some line → common.head? = some line) (after : List α) :
    merge before after common
      = (after.takeWhile (isOwn common)).map (fun line => (Mark.add, line))
        ++ merge before (after.dropWhile (isOwn common)) common := by
  induction after with
  | nil => rfl
  | cons other others ih =>
      by_cases h : common.head? = some other
      · simp [isOwn, h]
      · simp [isOwn, h, merge_add h hbefore, ih]

/-! ## Common lines in what is left -/

theorem takeShared_prefix (before after common : List α) :
    takeShared before after common <+: before ∧ takeShared before after common <+: after
      ∧ takeShared before after common <+: common := by
  fun_induction takeShared before after common with
  | case1 line rest other others shared more heq ih =>
      obtain ⟨rfl, rfl⟩ := heq
      simpa using ih
  | case2 | case3 => simp

omit [DecidableEq α] in
/-- What stands behind a common beginning of two lists still stands in order. -/
theorem drop_sublist_drop {taken common lines : List α} (h : common.Sublist lines)
    (hcommon : taken <+: common) (hlines : taken <+: lines) :
    (common.drop taken.length).Sublist (lines.drop taken.length) := by
  rw [List.prefix_iff_eq_append] at hcommon hlines
  rw [← hcommon, ← hlines, List.append_sublist_append_left] at h
  exact h

/-- Lines before the next common line are not needed for the common lines. -/
theorem sublist_dropWhile_isOwn {common lines : List α} (h : common.Sublist lines) :
    common.Sublist (lines.dropWhile (isOwn common)) := by
  induction lines with
  | nil => exact h
  | cons line rest ih =>
      by_cases hline : common.head? = some line
      · simpa [isOwn, hline] using h
      · have hrest : common.Sublist rest := by
          rcases List.sublist_cons_iff.1 h with hrest | ⟨more, rfl, -⟩
          · exact hrest
          · exact absurd rfl hline
        simpa [isOwn, hline] using ih hrest

theorem head?_dropWhile_isOwn {common lines : List α} {line : α}
    (h : (lines.dropWhile (isOwn common)).head? = some line) : common.head? = some line := by
  have hown := List.head?_dropWhile_not (isOwn common) lines
  rw [h] at hown
  simpa [isOwn] using hown

/-- Where a round takes no line, no line is left. -/
theorem eq_nil_of_take_eq_nil {before after common : List α} (hbefore : common.Sublist before)
    (hafter : common.Sublist after) (hshared : takeShared before after common = [])
    (hremoved : before.takeWhile (isOwn common) = [])
    (hadded : after.takeWhile (isOwn common) = []) : before = [] ∧ after = [] := by
  have hfirst : ∀ {line : α} {rest : List α}, (line :: rest).takeWhile (isOwn common) = [] →
      ∃ more, common = line :: more := by
    intro line rest hnone
    refine List.head?_eq_some_iff.1 ?_
    simpa [isOwn, List.takeWhile_cons] using hnone
  cases before with
  | nil =>
      cases after with
      | nil => exact ⟨rfl, rfl⟩
      | cons other others =>
          obtain ⟨more, rfl⟩ := hfirst hadded
          exact absurd hbefore (by simp)
  | cons line rest =>
      obtain ⟨more, rfl⟩ := hfirst hremoved
      cases after with
      | nil => exact absurd hafter (by simp)
      | cons other others =>
          obtain ⟨_, heq⟩ := hfirst hadded
          obtain ⟨rfl, -⟩ := List.cons.inj heq
          simp [takeShared] at hshared

namespace Unmerged

theorem Embedded.dropShared {left : Unmerged α} (h : left.Embedded) : left.dropShared.Embedded := by
  obtain ⟨hbefore, hafter, hcommon⟩ := takeShared_prefix left.before left.after left.common
  exact ⟨drop_sublist_drop h.before hcommon hbefore, drop_sublist_drop h.after hcommon hafter⟩

theorem Embedded.next {left : Unmerged α} (h : left.Embedded) : left.next.Embedded :=
  ⟨sublist_dropWhile_isOwn h.dropShared.before, sublist_dropWhile_isOwn h.dropShared.after⟩

/-! ## Progress -/

theorem size_dropShared (left : Unmerged α) :
    left.dropShared.size + 2 * left.shared.length = left.size := by
  obtain ⟨hbefore, hafter, -⟩ := takeShared_prefix left.before left.after left.common
  have hb := hbefore.length_le
  have ha := hafter.length_le
  simp only [size, dropShared, shared, List.length_drop] at hb ha ⊢
  omega

theorem size_next (left : Unmerged α) :
    left.next.size + left.dropShared.removed.length + left.dropShared.dropRemoved.added.length
      = left.dropShared.size := by
  have hlength : ∀ (p : α → Bool) (lines : List α),
      (lines.dropWhile p).length + (lines.takeWhile p).length = lines.length := by
    intro p lines
    rw [Nat.add_comm, ← List.length_append, List.takeWhile_append_dropWhile]
  have hbefore := hlength (isOwn left.dropShared.common) left.dropShared.before
  have hafter := hlength (isOwn left.dropShared.common) left.dropShared.after
  simp only [size, next, dropAdded, dropRemoved, removed, added]
  omega

/-- A round over common lines that stand in both texts takes a line. -/
theorem size_next_lt {left : Unmerged α} (h : left.Embedded) (hsize : left.size ≠ 0) :
    left.next.size < left.size := by
  have hshared := size_dropShared left
  have hnext := size_next left
  -- a round that leaves as much as there was has taken nothing in any of its three steps
  refine Nat.lt_of_not_le fun hstuck => ?_
  have hnone : left.shared = [] := List.length_eq_zero_iff.1 (by omega)
  have hleft : left.dropShared = left := by
    rw [Unmerged.dropShared, hnone]
    rfl
  have hremoved : left.dropShared.removed = [] := List.length_eq_zero_iff.1 (by omega)
  have hadded : left.dropShared.dropRemoved.added = [] := List.length_eq_zero_iff.1 (by omega)
  rw [hleft] at hremoved hadded
  obtain ⟨hbefore, hafter⟩ := eq_nil_of_take_eq_nil h.before h.after hnone hremoved hadded
  exact hsize (by rw [size, hbefore, hafter]; rfl)

/-! ## All rounds -/

/-- The changes that are left to be found. -/
def changes (left : Unmerged α) : List (Mark × α) := merge left.before left.after left.common

omit [DecidableEq α] in
theorem flatMap_changes_filter (chunks : List (Chunk α)) :
    (chunks.filter fun chunk => chunk.lines ≠ []).flatMap Chunk.changes
      = chunks.flatMap Chunk.changes := by
  induction chunks with
  | nil => rfl
  | cons chunk rest ih =>
      by_cases h : chunk.lines = [] <;> simp_all [Chunk.changes]

/-- A round finds the first changes and leaves the others to be found. -/
theorem changes_eq_append (left : Unmerged α) :
    left.changes = left.chunks.flatMap Chunk.changes ++ left.next.changes := by
  have hshared := merge_eq_takeShared left.before left.after left.common
  have hremoved := merge_eq_takeWhile_before left.dropShared.before left.dropShared.after
    left.dropShared.common
  have hhead : ∀ line, left.dropShared.dropRemoved.before.head? = some line →
      left.dropShared.common.head? = some line := fun line hline => head?_dropWhile_isOwn hline
  have hadded := merge_eq_takeWhile_after hhead left.dropShared.after
  rw [chunks, flatMap_changes_filter]
  calc left.changes
      = Chunk.changes ⟨.keep, left.shared⟩ ++ left.dropShared.changes := hshared
    _ = Chunk.changes ⟨.keep, left.shared⟩ ++ (Chunk.changes ⟨.remove, left.dropShared.removed⟩
          ++ left.dropShared.dropRemoved.changes) := congrArg _ hremoved
    _ = Chunk.changes ⟨.keep, left.shared⟩ ++ (Chunk.changes ⟨.remove, left.dropShared.removed⟩
          ++ (Chunk.changes ⟨.add, left.dropShared.dropRemoved.added⟩ ++ left.next.changes)) :=
        congrArg _ (congrArg _ hadded)
    _ = _ := by simp

theorem exists_rounds_eq_some {left : Unmerged α} (h : left.Embedded) :
    ∃ chunks, left.rounds = some chunks ∧ chunks.flatMap Chunk.changes = left.changes
      ∧ ∀ chunk ∈ chunks, chunk.lines ≠ [] := by
  fun_induction rounds left with
  | case1 left hsize =>
      obtain ⟨hbefore, hafter⟩ := Nat.add_eq_zero_iff.1 hsize
      rw [List.length_eq_zero_iff] at hbefore hafter
      exact ⟨[], rfl, by simp [changes, hbefore, hafter, merge], by simp⟩
  | case2 left hsize hlt ih =>
      obtain ⟨chunks, hchunks, hchanges, hlines⟩ := ih h.next
      refine ⟨left.chunks ++ chunks, by rw [hchunks]; rfl, ?_, ?_⟩
      · rw [List.flatMap_append, hchanges, ← changes_eq_append]
      · intro chunk hchunk
        rcases List.mem_append.1 hchunk with hfirst | hrest
        · exact of_decide_eq_true (List.mem_filter.1 hfirst).2
        · exact hlines chunk hrest
  | case3 left hsize hstuck => exact absurd (size_next_lt h hsize) hstuck

end Unmerged

end DefForms.LineDiff
