import SqlFragments.Session.Step

/-!
# Replies to steps

What is handed out for the answer of a render, and what a step leaves behind: the session after it,
in which one thing more was handed out. A step that renders nothing hands out nothing.
-/

namespace SqlFragments

def Step.isRender : Step → Bool
  | render _ _ _ => true
  | _ => false

namespace Session

theorem handOut_answer (session : Session) (place : Nat) :
    (session.handOut (.ok (.result place))).2 = (session.resultAt place).map fun r =>
      (.result r (session.firstHandout? place), .result place) := by
  cases h : session.resultAt place with
  | error cause =>
    simp only [handOut, replyTo, Bind.bind, Except.bind, Except.map, h]
  | ok r =>
    simp only [handOut, replyTo, Bind.bind, Except.bind, Except.map, h]
    rfl

theorem handOutText_answer (session : Session) (place : Nat) :
    (session.handOutText (.ok (.result place))).2 =
      (session.resultAt place).map fun r => handOutValue r.sql := by
  cases h : session.resultAt place with
  | error cause =>
    simp only [handOutText, Bind.bind, Except.bind, Except.map, h]
  | ok r =>
    simp only [handOutText, Bind.bind, Except.bind, Except.map, h]
    rfl

theorem resultAt_eq_ok {session : Session} {place : Nat} {r : Result}
    (h : session.results[place]? = some r) : session.resultAt place = .ok r := by
  rw [resultAt, h]

def handoutOf : Except Failure (Reply × Handout) → Handout
  | .ok answer => answer.2
  | .error _ => .value .null

section

variable {session : Session} {step : Step} (hstep : step.isRender = false)

include hstep

private theorem perform_of_not_render :
    session.perform step =
      match session.perform? step with
      | .ok (after, reply) => (after.skip, .ok reply)
      | .error cause => (session.skip, .error cause) := by
  cases step with
  | render manner target options => cases hstep
  | _ => rfl

theorem perform_ok {after : Session} {reply : Reply}
    (h : session.perform? step = .ok (after, reply)) :
    session.perform step = (after.skip, .ok reply) := by
  rw [perform_of_not_render hstep, h]

theorem perform_error {cause : Failure} (h : session.perform? step = .error cause) :
    session.perform step = (session.skip, .error cause) := by
  rw [perform_of_not_render hstep, h]

end

variable (session : Session) (manner : Manner) (target : Value) (options : Options)

theorem perform_render :
    session.perform (.render manner target options) =
      ({ (session.render manner target options).1 with
          handouts := (session.render manner target options).1.handouts ++
            [handoutOf (session.render manner target options).2] },
        (session.render manner target options).2.map (·.1)) := by
  cases h : session.render manner target options with
  | mk after answer => cases answer <;> simp only [perform, h] <;> rfl

end Session

end SqlFragments
