import DefForms.Proofs.Transform.Positions
import DefForms.Transform.Edit

set_option autoImplicit false

/-! # What a pass visits

The pass over trees goes through the positions of the trees one by one (`transformAllWatched_visits`).
`Visits` says this of a single computation of the pass: it takes the results that stand last, goes
through some positions and leaves its own results in their place. There is a rule for what the pass is
made of: one computation after another (`Visits.bind`), with results of others in front
(`Visits.frame`), and a single position (`visits_position`). A pass is watched to see which nodes it
gives to handlers, so the rules are about the watched computation and the plain one at once. -/

namespace DefForms

/-! ## Handler sets from registrations -/

section Registered

variable {m : Type → Type}

/-- The set that results when handlers are registered one after the other. -/
def Handlers.register (registered : List (Kind × Handler m)) : Handlers m :=
  registered.foldl (fun handlers entry => handlers.on entry.1 entry.2) Handlers.empty

/-- The handler that was registered last for a kind. -/
def lastRegistered (registered : List (Kind × Handler m)) (kind : Kind) : Option (Handler m) :=
  List.lookup kind registered.reverse

theorem lastRegistered_cons (other : Kind) (handler : Handler m) (rest : List (Kind × Handler m))
    (kind : Kind) :
    lastRegistered ((other, handler) :: rest) kind
      = (lastRegistered rest kind).or (if kind = other then some handler else none) := by
  rw [lastRegistered, lastRegistered, List.reverse_cons, List.lookup_append]
  by_cases hkind : kind = other
  · rw [hkind, List.lookup_cons_self, if_pos rfl]
  · rw [List.lookup_cons, beq_false_of_ne hkind, if_neg hkind, List.lookup_nil]

theorem handler?_foldl_on (registered : List (Kind × Handler m)) (handlers : Handlers m)
    (kind : Kind) :
    (registered.foldl (fun handlers entry => handlers.on entry.1 entry.2) handlers).handler? kind
      = (lastRegistered registered kind).or (handlers.handler? kind) := by
  induction registered generalizing handlers with
  | nil => rfl
  | cons entry rest ih =>
      obtain ⟨other, handler⟩ := entry
      rw [List.foldl_cons, ih, lastRegistered_cons, Option.or_assoc]
      by_cases hkind : kind = other <;> simp [hkind, Handlers.on]

/-- In a set that was built by registering handlers, the last one for a kind counts. -/
theorem handler?_register (registered : List (Kind × Handler m)) :
    (Handlers.register registered).handler? = lastRegistered registered := by
  funext kind
  rw [Handlers.register, handler?_foldl_on]
  exact Option.or_none

theorem lastRegistered_filterMap (handlers : Handlers m) (kinds : List Kind) (kind : Kind) :
    lastRegistered (kinds.filterMap fun k => (handlers.handler? k).map fun h => (k, h)) kind
      = if kind ∈ kinds then handlers.handler? kind else none := by
  induction kinds with
  | nil => rfl
  | cons first rest ih =>
      cases hfirst : handlers.handler? first with
      | none =>
          rw [List.filterMap_cons_none (by rw [hfirst]; rfl), ih]
          by_cases hkind : kind = first
          · simp [hkind, hfirst]
          · simp [hkind]
      | some handler =>
          rw [List.filterMap_cons_some (by rw [hfirst]; rfl), lastRegistered_cons, ih]
          by_cases hkind : kind = first
          · by_cases hrest : first ∈ rest <;> simp [hkind, hfirst, hrest]
          · simp [hkind]

/-- Every set can be built by registering handlers. -/
theorem exists_register (handlers : Handlers m) :
    ∃ registered, Handlers.register registered = handlers := by
  refine ⟨Kind.all.filterMap fun k => (handlers.handler? k).map fun h => (k, h), ?_⟩
  have hsame : (Handlers.register (Kind.all.filterMap fun k =>
      (handlers.handler? k).map fun h => (k, h))).handler? = handlers.handler? := by
    funext kind
    rw [handler?_register, lastRegistered_filterMap, if_pos kind.mem_all]
  exact congrArg Handlers.mk hsame

end Registered

/-! ## Watched computations -/

section Watched

variable {α β : Type} {watched : Watched α} {start log : List Node} {diagnostic : Diagnostic}

theorem run_bind_ok {next : α → Watched β} {found : α}
    (h : watched.run.run start = (.ok found, log)) :
    (watched >>= next).run.run start = (next found).run.run log := by
  simp only [ExceptT.run_bind, StateT.run_bind]
  rw [h]
  rfl

theorem run_bind_error {next : α → Watched β}
    (h : watched.run.run start = (.error diagnostic, log)) :
    (watched >>= next).run.run start = (.error diagnostic, log) := by
  simp only [ExceptT.run_bind, StateT.run_bind]
  rw [h]
  rfl

variable {handlers : Handlers Fallible} {node : Node}

theorem run_watch_of_none (h : handlers.handler? node.kind = none) :
    (handlers.watch.apply node).run.run start = (.ok node, start) := by
  have hwatch : handlers.watch.handler? node.kind = none := by
    simp only [Handlers.watch, h, Option.map_none]
  rw [Handlers.apply, hwatch]
  rfl

/-- A watched handler writes the node into the log, whatever comes of it. -/
theorem run_watch_of_some {handler : Handler Fallible}
    (h : handlers.handler? node.kind = some handler) :
    (handlers.watch.apply node).run.run start = (handler node, start ++ [node]) := by
  have hwatch : handlers.watch.handler? node.kind = some handler.watch := by
    simp only [Handlers.watch, h, Option.map_some]
  rw [Handlers.apply, hwatch]
  simp only [Handler.watch]
  cases handler node <;> rfl

end Watched

/-! ## Going through positions -/

/-- The computation takes the results `taken` from behind all others, goes through the positions, and
    leaves `results` of what it finds. It does the same whether it is watched or not, and `Pass` says
    what is written into the log. -/
def Visits {α : Type} (handlers : Handlers Fallible) (taken : List Node) (positions : List Position)
    (watched : Watched α) (plain : Fallible α) (results : α → List Node) : Prop :=
  ∃ log, (∀ start, watched.run.run start = (plain, start ++ log))
    ∧ (∀ found, plain = .ok found → ∀ before more later out,
        Pass handlers.handler? more (before ++ results found) later out →
        Pass handlers.handler? (positions ++ more) (before ++ taken) (log ++ later) out)
    ∧ ∀ diagnostic, plain = .error diagnostic → ∀ before more,
        Pass handlers.handler? (positions ++ more) (before ++ taken) log (.error diagnostic)

section Rules

variable {α β : Type} {handlers : Handlers Fallible} {taken : List Node}
  {positions front back : List Position} {watched : Watched α} {plain : Fallible α}
  {results : α → List Node}

theorem visits_ok (result : α) (log : List Node)
    (hrun : ∀ start, watched.run.run start = (.ok result, start ++ log)) (hplain : plain = .ok result)
    (hpass : ∀ before more later out,
      Pass handlers.handler? more (before ++ results result) later out →
      Pass handlers.handler? (positions ++ more) (before ++ taken) (log ++ later) out) :
    Visits handlers taken positions watched plain results := by
  subst hplain
  refine ⟨log, hrun, ?_, ?_⟩
  · intro found hfound
    obtain rfl := Except.ok.inj hfound
    exact hpass
  · intro diagnostic h
    simp at h

theorem visits_error {diagnostic : Diagnostic} (log : List Node)
    (hrun : ∀ start, watched.run.run start = (.error diagnostic, start ++ log))
    (hplain : plain = .error diagnostic)
    (hpass : ∀ before more,
      Pass handlers.handler? (positions ++ more) (before ++ taken) log (.error diagnostic)) :
    Visits handlers taken positions watched plain results := by
  subst hplain
  refine ⟨log, hrun, ?_, ?_⟩
  · intro found h
    simp at h
  · intro diagnostic' h
    obtain rfl := Except.error.inj h
    exact hpass

theorem visits_pure (found : α) (results : α → List Node) :
    Visits handlers (results found) [] (pure found) (pure found) results := by
  refine visits_ok found [] (fun start => ?_) rfl fun before more later out hmore => hmore
  rw [List.append_nil]
  rfl

theorem Visits.bind {next : α → Watched β} {next' : α → Fallible β} {results' : β → List Node}
    (h : Visits handlers taken front watched plain results)
    (hnext : ∀ found, plain = .ok found →
      Visits handlers (results found) back (next found) (next' found) results') :
    Visits handlers taken (front ++ back) (watched >>= next) (plain >>= next') results' := by
  obtain ⟨log, hrun, hok, herror⟩ := h
  cases hplain : plain with
  | error diagnostic =>
      rw [hplain] at hrun
      refine visits_error log (fun start => run_bind_error (hrun start)) rfl fun before more => ?_
      rw [List.append_assoc]
      exact herror _ hplain before (back ++ more)
  | ok found =>
      obtain ⟨log', hrun', hok', herror'⟩ := hnext found hplain
      rw [hplain] at hrun
      refine ⟨log ++ log', ?_, ?_, ?_⟩
      · intro start
        rw [run_bind_ok (hrun start), hrun' (start ++ log), List.append_assoc]
        rfl
      · intro found' hfound' before more later out hmore
        rw [List.append_assoc, List.append_assoc]
        exact hok found hplain before _ _ _ (hok' found' hfound' before more later out hmore)
      · intro diagnostic hdiagnostic before more
        rw [List.append_assoc]
        exact hok found hplain before _ _ _ (herror' diagnostic hdiagnostic before more)

/-- Results that stand in front of those that are taken stay where they are. -/
theorem Visits.frame (held : List Node) (h : Visits handlers taken positions watched plain results) :
    Visits handlers (held ++ taken) positions watched plain fun found => held ++ results found := by
  obtain ⟨log, hrun, hok, herror⟩ := h
  refine ⟨log, hrun, ?_, ?_⟩
  · intro found hfound before more later out hmore
    rw [← List.append_assoc] at hmore ⊢
    exact hok found hfound (before ++ held) more later out hmore
  · intro diagnostic hdiagnostic before more
    rw [← List.append_assoc]
    exact herror diagnostic hdiagnostic (before ++ held) more

/-- A computation that only puts together what was found does not go further. -/
theorem Visits.bind_pure {make : α → β} {results' : β → List Node}
    (h : Visits handlers taken positions watched plain results)
    (hmake : ∀ found, results' (make found) = results found) :
    Visits handlers taken positions (watched >>= fun found => pure (make found))
      (plain >>= fun found => pure (make found)) results' := by
  rw [← List.append_nil positions]
  refine h.bind fun found _ => ?_
  rw [← hmake found]
  exact visits_pure (make found) results'

/-- At a single position, the node is given to its handler, and what comes of it has to fit. -/
theorem visits_position {position : Position} {node : Node} {next : Node → Watched α}
    {next' : Node → Fallible α} (hnode : position.Rebuilds taken node)
    (hfits : ∀ found, position.refusal? found = none →
      ∃ result, next found = pure result ∧ next' found = .ok result ∧ results result = [found])
    (hrefuses : ∀ found diagnostic, position.refusal? found = some diagnostic →
      next found = throwThe Diagnostic diagnostic ∧ next' found = .error diagnostic) :
    Visits handlers taken [position] (handlers.watch.apply node >>= next)
      (handlers.apply node >>= next') results := by
  cases hhandler : handlers.handler? node.kind with
  | none =>
      obtain ⟨result, hnext, hnext', hresult⟩ := hfits node hnode.fits
      refine visits_ok result [] (fun start => ?_) ?_ fun before more later out hmore => ?_
      · rw [run_bind_ok (run_watch_of_none hhandler), hnext, List.append_nil]
        rfl
      · rw [Handlers.apply_of_none hhandler]
        exact hnext'
      · rw [hresult] at hmore
        exact .skip hnode hhandler hmore
  | some handler =>
      have hwatch : ∀ start, (handlers.watch.apply node).run.run start
          = (handler node, start ++ [node]) := fun start => run_watch_of_some hhandler
      rw [Handlers.apply_of_some hhandler]
      cases hfound : handler node with
      | error diagnostic =>
          rw [hfound] at hwatch
          exact visits_error [node] (fun start => run_bind_error (hwatch start)) rfl
            fun before more => .stop hnode hhandler (Position.visit_of_error hfound)
      | ok found =>
          rw [hfound] at hwatch
          cases hrefusal : position.refusal? found with
          | none =>
              obtain ⟨result, hnext, hnext', hresult⟩ := hfits found hrefusal
              refine visits_ok result [node] (fun start => ?_) hnext'
                fun before more later out hmore => ?_
              · rw [run_bind_ok (hwatch start), hnext]
                rfl
              · rw [hresult] at hmore
                exact .handle hnode hhandler (Position.visit_of_fits hfound hrefusal) hmore
          | some diagnostic =>
              obtain ⟨hnext, hnext'⟩ := hrefuses found diagnostic hrefusal
              refine visits_error [node] (fun start => ?_) hnext' fun before more => ?_
              · rw [run_bind_ok (hwatch start), hnext]
                rfl
              · exact .stop hnode hhandler (Position.visit_of_refuses hfound hrefusal)

end Rules

/-! ## The parts of a pass -/

section Trees

variable {handlers : Handlers Fallible}

theorem visits_free {original node : Node} {taken : List Node}
    (hnode : (Position.free original).Rebuilds taken node) :
    Visits handlers taken [.free original] (handlers.watch.apply node) (handlers.apply node)
      fun found => [found] := by
  have h : Visits handlers taken [.free original] (handlers.watch.apply node >>= pure)
      (handlers.apply node >>= pure) fun found => [found] :=
    visits_position hnode (fun found _ => ⟨found, rfl, rfl, rfl⟩) (by simp [Position.refusal?])
  rwa [bind_pure, bind_pure] at h

theorem visits_entry (param : Param) :
    Visits handlers [] [.entry param]
      (handlers.watch.apply (.param param) >>= fun found => found.asParam param.line)
      (handlers.apply (.param param) >>= fun found => found.asParam param.line)
      fun first => [.param first] := by
  refine visits_position (.entry param) ?_ ?_
  · intro found hfits
    cases found with
    | param first => exact ⟨first, rfl, rfl, rfl⟩
    | _ => simp [Position.refusal?, Node.kind] at hfits
  · intro found diagnostic hrefuses
    cases found with
    | param first => simp [Position.refusal?, Node.kind] at hrefuses
    | _ =>
        obtain rfl := Option.some.inj hrefuses
        exact ⟨rfl, rfl⟩

theorem visits_entries (entries : List Param) :
    Visits handlers [] (entries.map Position.entry) (Param.transformAll handlers.watch entries)
      (Param.transformAll handlers entries) (List.map Node.param) := by
  induction entries with
  | nil => exact visits_pure [] (List.map Node.param)
  | cons entry rest ih =>
      rw [Param.transformAll, Param.transformAll, ← bind_assoc, ← bind_assoc]
      exact (visits_entry entry).bind fun first _ =>
        (ih.frame [.param first]).bind_pure fun more => rfl

theorem visits_list {params : ParamList} {entries : List Param}
    (hlength : entries.length = params.entries.length) :
    Visits handlers (entries.map Node.param) [.list params]
      (handlers.watch.apply (.paramList ⟨params.line, entries⟩) >>= fun found =>
        found.asParamList params.line)
      (handlers.apply (.paramList ⟨params.line, entries⟩) >>= fun found =>
        found.asParamList params.line)
      fun list => [.paramList list] := by
  refine visits_position (.list hlength) ?_ ?_
  · intro found hfits
    cases found with
    | paramList list => exact ⟨list, rfl, rfl, rfl⟩
    | _ => simp [Position.refusal?, Node.kind] at hfits
  · intro found diagnostic hrefuses
    cases found with
    | paramList list => simp [Position.refusal?, Node.kind] at hrefuses
    | _ =>
        obtain rfl := Option.some.inj hrefuses
        exact ⟨rfl, rfl⟩

theorem visits_params (params : ParamList) :
    Visits handlers [] params.positions (params.transform handlers.watch)
      (params.transform handlers) fun list => [.paramList list] :=
  (visits_entries params.entries).bind fun _ hentries =>
    visits_list (Param.length_of_transformAll hentries)

mutual

/-- A tree is transformed position by position. -/
theorem visits_node (node : Node) :
    Visits handlers [] node.positions (node.transform handlers.watch) (node.transform handlers)
      fun found => [found] := by
  cases node with
  | int | float | operator | term | param =>
      rw [Node.transform, Node.transform]
      exact visits_free (.leaf rfl)
  | paramList params =>
      rw [Node.transform, Node.transform]
      exact (visits_params params).bind_pure fun list => rfl
  | call line head args =>
      rw [Node.transform, Node.transform]
      exact (visits_nodes args).bind fun found hfound =>
        visits_free (.call (Node.length_of_transformAll hfound))
  | definition line name params body =>
      rw [Node.transform, Node.transform]
      exact (visits_params params).bind fun list _ =>
        ((visits_nodes body).frame [.paramList list]).bind fun found hfound =>
          visits_free (.definition (Node.length_of_transformAll hfound))

theorem visits_nodes (nodes : List Node) :
    Visits handlers [] (Node.positionsAll nodes) (Node.transformAll handlers.watch nodes)
      (Node.transformAll handlers nodes) fun found => found := by
  cases nodes with
  | nil => exact visits_pure [] fun found => found
  | cons node rest =>
      rw [Node.transformAll, Node.transformAll]
      exact (visits_node node).bind fun first _ =>
        ((visits_nodes rest).frame [first]).bind_pure fun more => rfl

end

/-- A watched pass yields what the pass yields, and with the log it is a `Pass`. -/
theorem transformAllWatched_eq (handlers : Handlers Fallible) (nodes : List Node) :
    ∃ log, Node.transformAllWatched handlers nodes = (Node.transformAll handlers nodes, log)
      ∧ Pass handlers.handler? (Node.positionsAll nodes) [] log
        (Node.transformAll handlers nodes) := by
  obtain ⟨log, hrun, hok, herror⟩ : Visits handlers [] (Node.positionsAll nodes) _ _ _ :=
    visits_nodes nodes
  refine ⟨log, hrun [], ?_⟩
  rw [← List.append_nil (Node.positionsAll nodes)]
  cases hplain : Node.transformAll handlers nodes with
  | ok found =>
      have hpass := hok found hplain [] [] [] _ (.done _)
      rwa [List.append_nil log] at hpass
  | error diagnostic => exact herror diagnostic hplain [] []

end Trees

/-! ## The whole pass -/

/-- A pass with the handlers that were registered goes along the positions of its trees once (`Pass`).
    The nodes that handlers are given are those of the positions, in post-order, whose kind has a
    handler, and differ from them in what they hold only. The first one of which nothing comes that can
    take its place is the last one, and the pass fails with what was reported there. -/
theorem transformAllWatched_visits (registered : List (Kind × Handler Fallible))
    (nodes log : List Node) (out : Fallible (List Node)) :
    (Node.transformAllWatched (Handlers.register registered) nodes = (out, log)
        ↔ Pass (lastRegistered registered) (Node.positionsAll nodes) [] log out)
      ∧ (Node.transformAllWatched (Handlers.register registered) nodes = (out, log) →
        Node.transformAll (Handlers.register registered) nodes = out
          ∧ (∀ trees, out = .ok trees → Follows (lastRegistered registered)
            (handledPositions (lastRegistered registered) (Node.positionsAll nodes)) log)
          ∧ ∀ diagnostic, out = .error diagnostic → ∃ visited position left earlier node,
            handledPositions (lastRegistered registered) (Node.positionsAll nodes)
                = visited ++ position :: left
              ∧ log = earlier ++ [node] ∧ Follows (lastRegistered registered) visited earlier
              ∧ position.Yields (lastRegistered registered) node (.error diagnostic)) := by
  obtain ⟨log', hrun, hpass⟩ := transformAllWatched_eq (Handlers.register registered) nodes
  rw [handler?_register] at hpass
  rw [hrun]
  refine ⟨⟨?_, ?_⟩, ?_⟩
  · intro h
    obtain ⟨rfl, rfl⟩ := Prod.mk.inj h
    exact hpass
  · intro h
    obtain ⟨rfl, rfl⟩ := hpass.unique h
    rfl
  · intro h
    obtain ⟨rfl, rfl⟩ := Prod.mk.inj h
    refine ⟨rfl, fun trees hout => ?_, fun diagnostic hout => ?_⟩
    · rw [hout] at hpass
      exact hpass.follows_of_ok
    · rw [hout] at hpass
      exact hpass.follows_of_error

/-- Handlers for names, the first of which is replaced, and one for parameter lists that returns a
    name. -/
def renamedLists : List (Kind × Handler Fallible) :=
  [(.term, fun node => .ok (node.wrap "f")), (.term, fun node => .ok (node.rename "x" "y")),
    (.paramList, fun node => .ok (.term ⟨node.line, "p"⟩))]

/-- The call is rebuilt without being handled, and nothing is visited behind the parameter list. -/
theorem transformAllWatched_visits_of_renamed :
    Pass (lastRegistered renamedLists)
        (Node.positionsAll [.call 1 (.term ⟨1, "x"⟩) [.term ⟨2, "x"⟩],
          .definition 3 ⟨3, "x"⟩ ⟨4, [⟨4, ⟨4, "a"⟩, ⟨4, "T"⟩⟩]⟩ [.term ⟨5, "x"⟩]])
        [] [.term ⟨2, "x"⟩, .paramList ⟨4, [⟨4, ⟨4, "a"⟩, ⟨4, "T"⟩⟩]⟩]
        (.error (.notParamList 4 .term))
      ∧ ∃ visited position left earlier node,
        handledPositions (lastRegistered renamedLists)
            (Node.positionsAll [.call 1 (.term ⟨1, "x"⟩) [.term ⟨2, "x"⟩],
              .definition 3 ⟨3, "x"⟩ ⟨4, [⟨4, ⟨4, "a"⟩, ⟨4, "T"⟩⟩]⟩ [.term ⟨5, "x"⟩]])
            = visited ++ position :: left
          ∧ [.term ⟨2, "x"⟩, .paramList ⟨4, [⟨4, ⟨4, "a"⟩, ⟨4, "T"⟩⟩]⟩] = earlier ++ [node]
          ∧ Follows (lastRegistered renamedLists) visited earlier
          ∧ position.Yields (lastRegistered renamedLists) node (.error (.notParamList 4 .term)) := by
  have hrun : Node.transformAllWatched (Handlers.register renamedLists)
      [.call 1 (.term ⟨1, "x"⟩) [.term ⟨2, "x"⟩],
        .definition 3 ⟨3, "x"⟩ ⟨4, [⟨4, ⟨4, "a"⟩, ⟨4, "T"⟩⟩]⟩ [.term ⟨5, "x"⟩]]
      = (.error (.notParamList 4 .term),
        [.term ⟨2, "x"⟩, .paramList ⟨4, [⟨4, ⟨4, "a"⟩, ⟨4, "T"⟩⟩]⟩]) := by
    rfl
  obtain ⟨hpass, hvisits⟩ := transformAllWatched_visits renamedLists
    [.call 1 (.term ⟨1, "x"⟩) [.term ⟨2, "x"⟩],
      .definition 3 ⟨3, "x"⟩ ⟨4, [⟨4, ⟨4, "a"⟩, ⟨4, "T"⟩⟩]⟩ [.term ⟨5, "x"⟩]]
    [.term ⟨2, "x"⟩, .paramList ⟨4, [⟨4, ⟨4, "a"⟩, ⟨4, "T"⟩⟩]⟩] (.error (.notParamList 4 .term))
  obtain ⟨-, -, hfails⟩ := hvisits hrun
  exact ⟨hpass.1 hrun, hfails _ rfl⟩

end DefForms
