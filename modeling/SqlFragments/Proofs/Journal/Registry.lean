import Mathlib
import SqlFragments.Journal.Registry
import SqlFragments.Proofs.Outcome

/-!
# Setting up the journal again and again

A set-up that returns leaves the handlers that it asked for and no others: all earlier ones were
taken away and closed. One that fails has changed nothing of the journal, wherever it fails; all
that it may leave is a handler that nobody has.
-/

namespace SqlFragments.Journal

def Call.handlers (call : Call) (level : Level) : List Handler :=
  let structured := call.config.structured.isTruthy
  ⟨.console, structured, level⟩ ::
    if call.config.logFile.isTruthy then [⟨.file call.config.logFile, structured, level⟩] else []

def Call.Opens (call : Call) : Prop :=
  call.config.logFile.isTruthy = true → call.opening = .ok ()

namespace Registry

variable {registry : Registry} {call : Call} {word : Word} {level : Level} {cause : Failure}

/-! ## Steps of the work -/

section

variable {α β : Type} {task : Task α}

theorem run_bind_ok {a : α} {after : Registry} (h : task.run registry = .ok a after)
    (next : α → Task β) : (task >>= next).run registry = (next a).run after := by
  show EStateM.bind task next registry = _
  rw [EStateM.bind, show task registry = .ok a after from h]
  rfl

theorem run_bind_error {after : Registry} (h : task.run registry = .error cause after)
    (next : α → Task β) : (task >>= next).run registry = .error cause after := by
  show EStateM.bind task next registry = _
  rw [EStateM.bind, show task registry = .error cause after from h]

theorem run_attempt_ok {answer : Except Failure α} {a : α} (h : answer = .ok a) :
    (attempt answer).run registry = .ok a registry := by
  rw [h]
  rfl

theorem run_attempt_error {answer : Except Failure α} (h : answer = .error cause) :
    (attempt answer).run registry = .error cause registry := by
  rw [h]
  rfl

end

private theorem modify_last {α : Type} (front : List α) (a : α) (f : α → α) :
    (front ++ [a]).modify front.length f = front ++ [f a] := by
  induction front with
  | nil => rfl
  | cons b front ih => exact congrArg (b :: ·) ih

theorem run_setHandlerLevel {front : List Handler} {handler : Handler}
    (hmade : registry.made = front ++ [handler]) (h : word.toLevel = .ok level) :
    (setHandlerLevel front.length word).run registry =
      .ok () { registry with made := front ++ [{ handler with level }] } := by
  have hset : registry.made.modify front.length (fun handler => { handler with level }) =
      front ++ [{ handler with level }] := by
    rw [hmade, modify_last]
  rw [setHandlerLevel, run_bind_ok (run_attempt_ok h), ← hset]
  rfl

theorem run_dismiss (registry : Registry) (places : List Nat) :
    (places.forM dismiss).run { registry with attached := places } = .ok () { registry with
      attached := [], closed := registry.closed ++ places } := by
  induction places generalizing registry with
  | nil => rw [List.append_nil]; rfl
  | cons place rest ih =>
    have hfirst : (dismiss place).run { registry with attached := place :: rest } = .ok ()
        { registry with attached := rest, closed := registry.closed ++ [place] } := by
      show EStateM.Result.ok () { registry with
        attached := (place :: rest).erase place, closed := registry.closed ++ [place] } = _
      rw [List.erase_cons_head]
    rw [List.forM_eq_forM, List.forM_cons, run_bind_ok hfirst, ← List.forM_eq_forM]
    have hrest := ih { registry with closed := registry.closed ++ [place] }
    rw [List.append_assoc] at hrest
    exact hrest

theorem run_attach {places : List Nat} (h : (registry.attached ++ places).Nodup) :
    (places.forM attach).run registry =
      .ok () { registry with attached := registry.attached ++ places } := by
  induction places generalizing registry with
  | nil => rw [List.append_nil]; rfl
  | cons place rest ih =>
    rw [← List.singleton_append, ← List.append_assoc] at h
    have hnew : place ∉ registry.attached := by
      have hfront := (List.nodup_append.1 h).1
      intro hmem
      exact (List.nodup_append.1 hfront).2.2 place hmem place (List.mem_singleton_self _) rfl
    have hfirst : (attach place).run registry = .ok () { registry with
        attached := registry.attached ++ [place] } := by
      show EStateM.Result.ok () (if place ∈ registry.attached then registry
        else { registry with attached := registry.attached ++ [place] }) = _
      rw [if_neg hnew]
    rw [List.forM_eq_forM, List.forM_cons, run_bind_ok hfirst, ← List.forM_eq_forM, ih h,
      List.append_assoc]
    rfl

theorem run_replaceWith {places : List Nat} (h : places.Nodup) :
    (replaceWith places).run registry = .ok () { registry with
      attached := places, closed := registry.closed ++ registry.attached } := by
  let emptied : Registry :=
    { registry with attached := [], closed := registry.closed ++ registry.attached }
  have hget : (get : Task Registry).run registry = .ok registry registry := rfl
  have hdismiss : (registry.attached.forM dismiss).run registry = .ok () emptied :=
    run_dismiss registry registry.attached
  have hattach : (places.forM attach).run emptied = _ := run_attach h
  rw [replaceWith, run_bind_ok hget, run_bind_ok hdismiss, hattach]
  rfl

theorem run_setLevel (h : word.toLevel = .ok level) :
    (setLevel word).run registry = .ok () { registry with level } :=
  run_bind_ok (run_attempt_ok h) _

/-! ## Handlers in the making -/

/-- The registry with some more handlers, which nobody has. -/
def withMade (registry : Registry) (more : List Handler) : Registry :=
  { registry with made := registry.made ++ more }

theorem run_make_ok (target : Target) (structured : Bool) (h : word.toLevel = .ok level) :
    (make target structured word).run registry =
      .ok registry.made.length (registry.withMade [⟨target, structured, level⟩]) := by
  let started := registry.withMade [⟨target, structured, 0⟩]
  have hset : (setHandlerLevel registry.made.length word).run started = _ :=
    run_setHandlerLevel rfl h
  show (setHandlerLevel registry.made.length word >>= fun _ => _).run started = _
  rw [run_bind_ok hset]
  rfl

theorem run_make_error (target : Target) (structured : Bool) (h : word.toLevel = .error cause) :
    (make target structured word).run registry =
      .error cause (registry.withMade [⟨target, structured, 0⟩]) := by
  let started := registry.withMade [⟨target, structured, 0⟩]
  have hset : (setHandlerLevel registry.made.length word).run started = .error cause started :=
    run_bind_error (run_attempt_error h) _
  show (setHandlerLevel registry.made.length word >>= fun _ => _).run started = _
  rw [run_bind_error hset]

def newPlaces (registry : Registry) (call : Call) (level : Level) : List Nat :=
  List.range' registry.made.length (call.handlers level).length

theorem nodup_newPlaces : (registry.newPlaces call level).Nodup :=
  List.nodup_range' _

theorem mem_newPlaces {place : Nat} : place ∈ registry.newPlaces call level ↔
    registry.made.length ≤ place ∧ place < registry.made.length + (call.handlers level).length := by
  rw [newPlaces, List.mem_range'_1]

theorem run_prepare_ok (h : word.toLevel = .ok level) (hopens : call.Opens) :
    (prepare call word).run registry =
      .ok (registry.newPlaces call level) (registry.withMade (call.handlers level)) := by
  rw [prepare, run_bind_ok (run_make_ok _ _ h)]
  by_cases hfile : call.config.logFile.isTruthy = true
  · rw [if_pos hfile, run_bind_ok (run_attempt_ok (hopens hfile)),
      run_bind_ok (run_make_ok _ _ h), newPlaces, Call.handlers, if_pos hfile, withMade, withMade,
      withMade, List.append_assoc, List.length_append]
    rfl
  · rw [if_neg hfile, newPlaces, Call.handlers, if_neg hfile]
    rfl

theorem run_prepare_error (registry : Registry)
    (h : word.toLevel = .error cause ∨ (∃ level, word.toLevel = .ok level) ∧
      call.config.logFile.isTruthy = true ∧ call.opening = .error cause) :
    ∃ more, (prepare call word).run registry = .error cause (registry.withMade more) := by
  rcases h with hlevel | ⟨⟨level, hlevel⟩, hfile, hopening⟩
  · exact ⟨_, run_bind_error (run_make_error _ _ hlevel) _⟩
  · rw [prepare, run_bind_ok (run_make_ok _ _ hlevel), if_pos hfile,
      run_bind_error (run_attempt_error hopening)]
    exact ⟨_, rfl⟩

/-! ## Calls -/

theorem handlersFor_of_level_error (h : levelOf call.config.level = .error cause) :
    handlersFor call.openable call.config = .error cause := by
  rw [handlersFor, h]
  rfl

theorem handlersFor_of_level_ok (h : levelOf call.config.level = .ok level) :
    handlersFor call.openable call.config = if call.config.logFile.isTruthy then
      call.opening.map fun _ => call.handlers level else .ok (call.handlers level) := by
  rw [handlersFor, h]
  by_cases hfile : call.config.logFile.isTruthy = true
  · rw [if_pos hfile, Call.handlers, if_pos hfile, Call.opening]
    show (if call.config.logFile.isTruthy = true then _ else _) = _
    rw [if_pos hfile]
    cases checkPath call.config.logFile with
    | error cause => rfl
    | ok => cases h : call.openable call.config.logFile <;> simp [bind, Except.bind] <;> rfl
  · rw [if_neg hfile, Call.handlers, if_neg hfile]
    show (if call.config.logFile.isTruthy = true then _ else _) = _
    rw [if_neg hfile]
    rfl

theorem handlersFor_eq_ok_iff {handlers : List Handler} :
    handlersFor call.openable call.config = .ok handlers ↔
      ∃ level, levelOf call.config.level = .ok level ∧ call.Opens ∧
        call.handlers level = handlers := by
  cases hlevel : levelOf call.config.level with
  | error cause =>
    rw [handlersFor_of_level_error hlevel]
    constructor
    · exact nofun
    · rintro ⟨_, h, -⟩
      cases h
  | ok level =>
    rw [handlersFor_of_level_ok hlevel, Call.Opens]
    cases hfile : call.config.logFile.isTruthy with
    | false => simp
    | true => cases call.opening <;> simp [Except.map]

theorem handlersFor_eq_error_iff : handlersFor call.openable call.config = .error cause ↔
    levelOf call.config.level = .error cause ∨ (∃ level, levelOf call.config.level = .ok level) ∧
      call.config.logFile.isTruthy = true ∧ call.opening = .error cause := by
  cases hlevel : levelOf call.config.level with
  | error cause' =>
    rw [handlersFor_of_level_error hlevel]
    simp
  | ok level =>
    rw [handlersFor_of_level_ok hlevel]
    cases hfile : call.config.logFile.isTruthy with
    | false => simp
    | true => cases call.opening <;> simp [Except.map]

/-- A call that fails adds handlers that nobody has, and changes nothing else. -/
theorem configure_error (registry : Registry)
    (h : handlersFor call.openable call.config = .error cause) :
    ∃ more, registry.configure call = (registry.withMade more, .error cause) := by
  rw [handlersFor_eq_error_iff, levelOf] at h
  cases hword : wordOf call.config.level with
  | error cause' =>
    rw [hword] at h
    have hcause : cause' = cause := by
      rcases h with h | ⟨⟨_, h⟩, -⟩
      · exact Except.error.inj h
      · cases h
    have hrun : (setUp call).run registry = .error cause' registry :=
      run_bind_error (run_attempt_error hword) _
    refine ⟨[], ?_⟩
    rw [configure, hrun, withMade, List.append_nil, hcause]
  | ok word =>
    rw [hword] at h
    obtain ⟨more, hprepare⟩ := run_prepare_error registry h
    refine ⟨more, ?_⟩
    rw [configure, setUp, run_bind_ok (run_attempt_ok hword), run_bind_error hprepare]

/-- A call that returns has its handlers in the place of all earlier ones. -/
theorem configure_ok (registry : Registry) (hlevel : levelOf call.config.level = .ok level)
    (hopens : call.Opens) :
    registry.configure call = ({
      made := registry.made ++ call.handlers level
      attached := registry.newPlaces call level
      closed := registry.closed ++ registry.attached
      level := level
      propagates := false }, .ok ()) := by
  obtain ⟨word, hword, hlevel⟩ := Outcome.bind_eq_ok.1 hlevel
  have hrun : (setUp call).run registry = .ok () {
      made := registry.made ++ call.handlers level
      attached := registry.newPlaces call level
      closed := registry.closed ++ registry.attached
      level := level
      propagates := false } := by
    rw [setUp, run_bind_ok (run_attempt_ok hword), run_bind_ok (run_prepare_ok hlevel hopens),
      run_bind_ok (run_replaceWith nodup_newPlaces), run_bind_ok (run_setLevel hlevel)]
    rfl
  rw [configure, hrun]

theorem returns_or_fails (call : Call) :
    (∃ level, levelOf call.config.level = .ok level ∧ call.Opens) ∨
      ∃ cause, handlersFor call.openable call.config = .error cause := by
  cases h : handlersFor call.openable call.config with
  | error cause => exact .inr ⟨cause, rfl⟩
  | ok handlers =>
    obtain ⟨level, hlevel, hopens, -⟩ := handlersFor_eq_ok_iff.1 h
    exact .inl ⟨level, hlevel, hopens⟩

/-- A registry in order: what is attached is attached once and not closed, and handlers stand only
where some were made. -/
structure IsSound (registry : Registry) : Prop where
  nodup : registry.attached.Nodup
  attached_lt : ∀ place ∈ registry.attached, place < registry.made.length
  closed_lt : ∀ place ∈ registry.closed, place < registry.made.length
  disjoint : ∀ place ∈ registry.attached, place ∉ registry.closed

theorem IsSound.touched_lt (h : registry.IsSound) :
    ∀ place ∈ registry.closed ++ registry.attached, place < registry.made.length := by
  rw [List.forall_mem_append]
  exact ⟨h.closed_lt, h.attached_lt⟩

theorem IsSound.withMade (h : registry.IsSound) (more : List Handler) :
    (registry.withMade more).IsSound := by
  have hle : registry.made.length ≤ (registry.withMade more).made.length := by
    simp [Registry.withMade]
  exact ⟨h.nodup, fun place hplace => Nat.lt_of_lt_of_le (h.attached_lt place hplace) hle,
    fun place hplace => Nat.lt_of_lt_of_le (h.closed_lt place hplace) hle, h.disjoint⟩

/-- No call brings a registry out of order. -/
theorem IsSound.configure (h : registry.IsSound) (call : Call) :
    (registry.configure call).1.IsSound := by
  rcases returns_or_fails call with ⟨level, hlevel, hopens⟩ | ⟨cause, hfails⟩
  · rw [configure_ok registry hlevel hopens]
    constructor
    · exact nodup_newPlaces
    · intro place hplace
      rw [List.length_append]
      exact (mem_newPlaces.1 hplace).2
    · intro place hplace
      rw [List.length_append]
      exact Nat.lt_add_right _ (h.touched_lt place hplace)
    · intro place hplace hclosed
      exact Nat.not_lt.2 (mem_newPlaces.1 hplace).1 (h.touched_lt place hclosed)
  · obtain ⟨more, hconfigure⟩ := configure_error registry hfails
    rw [hconfigure]
    exact h.withMade more

def after (registry : Registry) (calls : List Call) : Registry :=
  calls.foldl (fun registry call => (registry.configure call).1) registry

theorem IsSound.after (h : registry.IsSound) (calls : List Call) :
    (registry.after calls).IsSound := by
  induction calls generalizing registry with
  | nil => exact h
  | cons call rest ih => exact ih (h.configure call)

theorem isSound_after_empty (calls : List Call) : (({} : Registry).after calls).IsSound := by
  have hstart : ({} : Registry).IsSound := ⟨.nil, nofun, nofun, nofun⟩
  exact hstart.after calls

/-! ## What the journal has -/

end Registry

end SqlFragments.Journal
