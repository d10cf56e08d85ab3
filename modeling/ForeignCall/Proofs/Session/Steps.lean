import ForeignCall.Session.Basic

/-! # Running steps

What a step gives and which session it leaves, for sequences, handlers and the steps that touch
registers and events. Each of these is one rewrite, so nothing else has to open the monad.
-/

namespace ForeignCall

namespace Session

variable {α β : Type}

theorem run_get (session : Session) : (get : Step Session).run session = (.ok session, session) := rfl

theorem run_set (after session : Session) :
    (set after : Step Unit).run session = (.ok (), after) := rfl

theorem run_modify (change : Session → Session) (session : Session) :
    (modify change : Step Unit).run session = (.ok (), change session) := rfl

/-- Steps one after the other; the second is left out if the first fails. -/
theorem run_bind (action : Step α) (rest : α → Step β) (session : Session) :
    (action >>= rest).run session =
      match action.run session with
      | (.ok value, after) => (rest value).run after
      | (.error error, after) => (.error error, after) := by
  show (ExceptT.bindCont rest (action.run session).1) (action.run session).2 = _
  rcases action.run session with ⟨_ | _, _⟩ <;> rfl

/-- A handler runs in the session that a failed step leaves. -/
theorem run_tryCatch (action : Step α) (handler : CommandError → Step α) (session : Session) :
    (tryCatch action handler).run session =
      match action.run session with
      | (.ok value, after) => (.ok value, after)
      | (.error error, after) => (handler error).run after := by
  rcases ran : action.run session with ⟨result, after⟩
  have ran' : action session = (result, after) := ran
  simp only [tryCatch, tryCatchThe, MonadExceptOf.tryCatch, ExceptT.tryCatch, ran', bind,
    StateT.bind, ExceptT.run, ExceptT.mk]
  cases result <;> rfl

/-- A last step runs whether or not the first one fails. -/
theorem run_tryFinally (action : Step α) (last : Step Unit) (session : Session) :
    (tryFinally action last).run session =
      match last.run (action.run session).2 with
      | (.ok _, final) => ((action.run session).1, final)
      | (.error error, final) => (.error error, final) := by
  rcases ran : action.run session with ⟨result, after⟩
  rcases ended : last.run after with ⟨outcome, final⟩
  have ran' : action session = (result, after) := ran
  have ended' : last after = (outcome, final) := ended
  cases result <;> cases outcome <;>
    simp only [tryFinally, tryFinally', ran', ended', bind, StateT.bind, ExceptT.run, ExceptT.mk,
      Functor.map, ExceptT.map] <;> rfl

theorem run_emit {session : Session} (installed : session.objects.isSome)
    (events : List ReferenceEvent) :
    (emit events).run session = (.ok (), { session with events := session.events ++ events }) := by
  show (Except.ok (), if session.objects.isSome then _ else _) = _
  rw [if_pos installed]

theorem run_load (name : String) (session : Session) :
    (load name).run session =
      (match session.registers.lookup name with
        | some value => .ok value
        | none => .error (.unusable ("register " ++ name)), session) := by
  show (match session.registers.lookup name with
    | some value => (pure value : Step Value)
    | none => throw (CommandError.unusable ("register " ++ name))).run session = _
  cases session.registers.lookup name <;> rfl

theorem run_replace (name : String) (value : Value) (session : Session) :
    (replace name value).run session =
      (.ok (), { session with registers := assign name value session.registers }) := rfl

/-- An operation that succeeds gives its value and emits its events. -/
theorem run_perform {session : Session} (installed : session.objects.isSome)
    (operation : Except ValueError (α × List ReferenceEvent)) :
    (perform operation).run session =
      match operation with
      | .ok (value, events) => (.ok value, { session with events := session.events ++ events })
      | .error error => (.error (.value error), session) := by
  cases operation with
  | error error => rfl
  | ok result =>
    obtain ⟨value, events⟩ := result
    show (do emit events; pure value : Step α).run session = _
    rw [run_bind, run_emit installed]
    rfl

/-- A register is changed with the events of the change, or the session stays as it is. -/
theorem run_update (register : String)
    (change : Hierarchy → Value → Except ValueError (Value × List ReferenceEvent))
    (session : Session) :
    (update register change).run session =
      match session.registers.lookup register with
      | none => (.error (.unusable ("register " ++ register)), session)
      | some value =>
        match change session.host.hierarchy value with
        | .error error => (.error (.value error), session)
        | .ok (updated, events) =>
          (.ok (), { session with
            registers := assign register updated session.registers
            events := session.events ++ if session.objects.isSome then events else [] }) := by
  rw [update, run_bind, run_load]
  cases session.registers.lookup register with
  | none => rfl
  | some value =>
    have hosted : hierarchy.run session = (.ok session.host.hierarchy, session) := rfl
    simp only [run_bind, hosted]
    cases changed : change session.host.hierarchy value with
    | error error => rfl
    | ok result =>
      obtain ⟨updated, events⟩ := result
      by_cases installed : session.objects.isSome
      · simp only [run_perform installed, if_pos installed]
        rfl
      · have silent : (emit events).run session = (.ok (), session) := by
          show (Except.ok (), if session.objects.isSome then _ else session) = _
          rw [if_neg installed]
        have ran : (perform (Except.ok (updated, events))).run session = (.ok updated, session) := by
          show (do emit events; pure updated : Step Value).run session = _
          rw [run_bind, silent]
          rfl
        simp only [ran, if_neg installed, List.append_nil]
        rfl

end Session

end ForeignCall
