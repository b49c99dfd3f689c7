import DefForms.Reader.Delimiter

set_option autoImplicit false

/-! # The delimiter that closes a form

The search for a closing delimiter knows one kind of delimiter and nothing else. Here it is described
by the texts that it passes: a text is `Balanced` if a search that has something open comes out behind
it with as much open as before. A balanced text between two delimiters is exactly what `enclosed`
finds (`enclosed_of_balanced`), and what `enclosed` finds stands in the text where it says
(`eq_of_enclosed`) and does not depend on what comes behind (`enclosed_inner_extends`). -/

namespace DefForms.Reader

variable {opener closer : Char}

/-! ## Balanced texts -/

/-- The text closes exactly the delimiters that it opens: a search inside an open form goes on
    behind it with the same number of delimiters open. -/
def Balanced (opener closer : Char) (text : List Char) : Prop :=
  ∀ index depth rest, 0 < depth →
    closeFrom opener closer index depth (text ++ rest)
      = closeFrom opener closer (index + text.length) depth rest

theorem balanced_nil : Balanced opener closer [] := by
  intro index depth rest _
  rfl

theorem balanced_append {front back : List Char} (hfront : Balanced opener closer front)
    (hback : Balanced opener closer back) : Balanced opener closer (front ++ back) := by
  intro index depth rest hdepth
  rw [List.append_assoc, hfront index depth _ hdepth, hback _ depth rest hdepth,
    List.length_append, Nat.add_assoc]

theorem balanced_cons {c : Char} {text : List Char} (hopener : c ≠ opener) (hcloser : c ≠ closer)
    (h : Balanced opener closer text) : Balanced opener closer (c :: text) := by
  intro index depth rest hdepth
  rw [List.cons_append, closeFrom, if_neg hopener, if_neg hcloser, h _ depth rest hdepth,
    List.length_cons, Nat.add_assoc, Nat.add_comm 1]

/-- A text is balanced if its characters have a property that the two delimiters do not have. -/
theorem balanced_of_forall {p : Char → Prop} {text : List Char} (hopener : ¬ p opener)
    (hcloser : ¬ p closer) (h : ∀ c ∈ text, p c) : Balanced opener closer text := by
  induction text with
  | nil => exact balanced_nil
  | cons c rest ih =>
      obtain ⟨hc, hrest⟩ := List.forall_mem_cons.1 h
      refine balanced_cons ?_ ?_ (ih hrest)
      · rintro rfl
        exact hopener hc
      · rintro rfl
        exact hcloser hc

/-- Inside an open form, the search passes a balanced text and stops at the delimiter behind it. -/
theorem closeFrom_balanced {inner rest : List Char} (hne : closer ≠ opener) (index depth : Nat)
    (h : Balanced opener closer inner) :
    closeFrom opener closer index (depth + 1) (inner ++ closer :: rest)
      = if depth = 0 then some (index + inner.length)
        else closeFrom opener closer (index + inner.length + 1) depth rest := by
  rw [h index (depth + 1) _ (Nat.succ_pos depth), closeFrom, if_neg hne, if_pos rfl]
  simp only [Nat.add_eq_right, Nat.add_sub_cancel]

/-- A form with balanced contents is balanced. -/
theorem balanced_form {inner : List Char} (hne : closer ≠ opener)
    (h : Balanced opener closer inner) : Balanced opener closer (opener :: inner ++ [closer]) := by
  intro index depth rest hdepth
  have hopen : opener :: inner ++ [closer] ++ rest = opener :: (inner ++ closer :: rest) := by simp
  have hlength : (opener :: inner ++ [closer]).length = inner.length + 2 := by simp
  rw [hopen, hlength, closeFrom, if_pos rfl, closeFrom_balanced hne _ _ h,
    if_neg (Nat.ne_of_gt hdepth)]
  congr 1
  omega

/-! ## What is enclosed -/

theorem closeIndex_cons (text : List Char) :
    closeIndex opener closer (opener :: text) = closeFrom opener closer 1 1 text := by
  rw [closeIndex, closeFrom, if_pos rfl]

/-- Balanced contents are found between their delimiters. -/
theorem enclosed_of_balanced {inner : List Char} (rest : List Char) (hne : closer ≠ opener)
    (h : Balanced opener closer inner) :
    enclosed opener closer (opener :: (inner ++ closer :: rest)) = some ⟨inner, rest⟩ := by
  have hindex : closeIndex opener closer (opener :: (inner ++ closer :: rest))
      = some (inner.length + 1) := by
    rw [closeIndex_cons, closeFrom_balanced hne 1 0 h, if_pos rfl, Nat.add_comm]
  simp only [enclosed, hindex]
  simp

/-- A search that succeeds stops at a closing delimiter. -/
theorem eq_of_closeFrom {text : List Char} {index depth found : Nat}
    (h : closeFrom opener closer index depth text = some found) :
    ∃ inner rest, text = inner ++ closer :: rest ∧ found = index + inner.length := by
  induction text generalizing index depth with
  | nil => simp [closeFrom] at h
  | cons c text ih =>
      -- one more character passed, whatever the number of open delimiters
      have later : ∀ depth', closeFrom opener closer (index + 1) depth' text = some found →
          ∃ inner rest, c :: text = inner ++ closer :: rest ∧ found = index + inner.length := by
        intro depth' h'
        obtain ⟨inner, rest, rfl, rfl⟩ := ih h'
        exact ⟨c :: inner, rest, rfl, by simp only [List.length_cons]; omega⟩
      rw [closeFrom] at h
      split at h
      · exact later _ h
      · split at h
        · next hc =>
            split at h
            · simp only [Option.some.injEq] at h
              exact ⟨[], text, by rw [hc]; rfl, by simp [h]⟩
            · exact later _ h
        · exact later _ h

/-- What is enclosed ends where the search stops. -/
theorem closeFrom_of_enclosed {text : List Char} {form : Enclosed}
    (h : enclosed opener closer (opener :: text) = some form) :
    closeFrom opener closer 1 1 text = some (1 + form.inner.length)
      ∧ text = form.inner ++ closer :: form.rest := by
  unfold enclosed at h
  split at h
  · simp at h
  · next index hindex =>
      simp only [Option.some.injEq] at h
      subst h
      rw [closeIndex_cons] at hindex
      obtain ⟨inner, rest, rfl, rfl⟩ := eq_of_closeFrom hindex
      refine ⟨?_, by simp [Nat.add_comm 1]⟩
      rw [hindex]
      simp [Nat.add_comm 1]

/-- What is enclosed stands between the delimiters. -/
theorem eq_of_enclosed {text : List Char} {form : Enclosed}
    (h : enclosed opener closer (opener :: text) = some form) :
    text = form.inner ++ closer :: form.rest :=
  (closeFrom_of_enclosed h).2

/-! ## Texts with a common front -/

/-- What was found in a text is found in every longer one. -/
theorem closeFrom_append {text : List Char} {index depth found : Nat} (more : List Char)
    (h : closeFrom opener closer index depth text = some found) :
    closeFrom opener closer index depth (text ++ more) = some found := by
  induction text generalizing index depth with
  | nil => simp [closeFrom] at h
  | cons c text ih =>
      rw [closeFrom] at h
      rw [List.cons_append, closeFrom]
      split at h
      · next hopener => rw [if_pos hopener]; exact ih h
      · next hopener =>
          rw [if_neg hopener]
          split at h
          · next hcloser =>
              rw [if_pos hcloser]
              split at h
              · next hdepth => rw [if_pos hdepth]; exact h
              · next hdepth => rw [if_neg hdepth]; exact ih h
          · next hcloser => rw [if_neg hcloser]; exact ih h

/-- What is found inside the front of a text is found without the part behind. -/
theorem closeFrom_of_append {text more : List Char} {index depth found : Nat}
    (h : closeFrom opener closer index depth (text ++ more) = some found)
    (hfound : found < index + text.length) :
    closeFrom opener closer index depth text = some found := by
  induction text generalizing index depth with
  | nil =>
      obtain ⟨inner, rest, -, rfl⟩ := eq_of_closeFrom h
      simp only [List.length_nil] at hfound
      omega
  | cons c text ih =>
      rw [List.cons_append, closeFrom] at h
      rw [closeFrom]
      have bound : found < index + 1 + text.length := by
        rw [List.length_cons] at hfound
        omega
      split at h
      · next hopener => rw [if_pos hopener]; exact ih h bound
      · next hopener =>
          rw [if_neg hopener]
          split at h
          · next hcloser =>
              rw [if_pos hcloser]
              split at h
              · next hdepth => rw [if_pos hdepth]; exact h
              · next hdepth => rw [if_neg hdepth]; exact ih h bound
          · next hcloser => rw [if_neg hcloser]; exact ih h bound

/-- If a form reaches at least to the end of `front`, it does so in every text that starts with
    `front` and in which the form is closed. -/
theorem enclosed_inner_extends {front back back' tail : List Char} {form form' : Enclosed}
    (h : enclosed opener closer (opener :: (front ++ back)) = some form)
    (hinner : form.inner = front ++ tail)
    (h' : enclosed opener closer (opener :: (front ++ back')) = some form') :
    ∃ tail', form'.inner = front ++ tail' := by
  have text := eq_of_enclosed h
  have text' := eq_of_enclosed h'
  by_cases hle : front.length ≤ form'.inner.length
  · have common : front <+: form'.inner :=
      List.prefix_of_prefix_length_le (List.prefix_append front back')
        (text' ▸ List.prefix_append _ _) hle
    obtain ⟨tail', htail'⟩ := common
    exact ⟨tail', htail'.symm⟩
  · -- a closer inside `front` would have been found in the first text as well
    exfalso
    have found := (closeFrom_of_enclosed h).1
    have found' := (closeFrom_of_enclosed h').1
    have early := closeFrom_append back (closeFrom_of_append found' (by omega))
    rw [found, hinner] at early
    simp only [Option.some.injEq, List.length_append] at early
    omega

end DefForms.Reader
