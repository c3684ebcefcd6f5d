import Mathlib.Tactic.Lemma
import XBase.Database.Connection

/-!
# Conversations with databases

The connection object puts questions to drivers and to the session that it holds. Here the
questions stand for themselves, and anyone may answer them. Whatever the answers are, a driver is
asked to connect only while no session is held, and a session is asked to open tables until it is
asked to close, which is the last that it hears.
-/

namespace XBase

/-- What the connection object asks, a driver or a session that has received some calls. -/
inductive Question where
  | connect (driver : Driver) (settings : Settings)
  | call (session : DriverSession) (call : SessionCall)

abbrev Answer := Except String (List Row)

abbrev Exchange := Question × Answer

def Question.answer : Question → Answer
  | connect driver settings => (driver.connect settings).map fun _ => []
  | call session (.open table) => session.driver.rows session.settings session.calls table
  | call session .close => (session.driver.close session.settings session.calls).map fun _ => []

inductive Request where
  | connect (choice : Except String (Driver × Settings))
  | open (table : String)
  | disconnect

def DriverSession.after (session : DriverSession) (call : SessionCall) : DriverSession :=
  { session with calls := session.calls ++ [call] }

namespace Request

/-- The only question that a request can lead to. -/
def question? : Request → Option DriverSession → Option Question
  | connect (.ok (driver, settings)), none => some (.connect driver settings)
  | .open table, some session => some (.call session (.open table))
  | disconnect, some session => some (.call session .close)
  | _, _ => none

/-- The result of a request and the session that is held after it. -/
def outcome (ask : Question → Answer) :
    Request → Option DriverSession → Answer × Option DriverSession
  | connect _, some session => (.ok [], some session)
  | connect (.error message), none => (.error message, none)
  | connect (.ok (driver, settings)), none =>
    match ask (.connect driver settings) with
    | .error message => (.error message, none)
    | .ok _ => (.ok [], some ⟨driver, settings, []⟩)
  | .open _, none | disconnect, none => (.error Connection.notConnected, none)
  | .open table, some session =>
    (ask (.call session (.open table)), some (session.after (.open table)))
  | disconnect, some session => ((ask (.call session .close)).map fun _ => [], none)

/-- What is asked and answered because of a request. -/
def exchanges (ask : Question → Answer) (request : Request) (held : Option DriverSession) :
    List Exchange :=
  (request.question? held).toList.map fun question => (question, ask question)

end Request

/-- Exchanges that lead from one session that is held to another one. -/
inductive Converses : Option DriverSession → List Exchange → Option DriverSession → Prop
  | silent (held : Option DriverSession) : Converses held [] held
  | refused {driver : Driver} {settings : Settings} {message : String} {later : List Exchange}
      {held : Option DriverSession} (h : Converses none later held) :
      Converses none ((.connect driver settings, .error message) :: later) held
  | granted {driver : Driver} {settings : Settings} {rows : List Row} {later : List Exchange}
      {held : Option DriverSession} (h : Converses (some ⟨driver, settings, []⟩) later held) :
      Converses none ((.connect driver settings, .ok rows) :: later) held
  | opened {session : DriverSession} {table : String} {answer : Answer} {later : List Exchange}
      {held : Option DriverSession} (h : Converses (some (session.after (.open table))) later held) :
      Converses (some session) ((.call session (.open table), answer) :: later) held
  | closed {session : DriverSession} {answer : Answer} {later : List Exchange}
      {held : Option DriverSession} (h : Converses none later held) :
      Converses (some session) ((.call session .close, answer) :: later) held

/-- A conversation in which those who are asked answer by themselves. -/
def Talks (held final : Option DriverSession) : Prop :=
  ∃ exchanges, (∀ exchange ∈ exchanges, exchange.2 = exchange.1.answer) ∧
    Converses held exchanges final

namespace Proofs

section Sessions

variable {held mid final : Option DriverSession} {before later : List Exchange}

lemma converses_append (h : Converses held before mid) (h' : Converses mid later final) :
    Converses held (before ++ later) final := by
  induction h with
  | silent => exact h'
  | refused _ ih => exact .refused (ih h')
  | granted _ ih => exact .granted (ih h')
  | opened _ ih => exact .opened (ih h')
  | closed _ ih => exact .closed (ih h')

lemma talks_refl (held : Option DriverSession) : Talks held held :=
  ⟨[], by simp, .silent held⟩

lemma talks_trans (h : Talks held mid) (h' : Talks mid final) : Talks held final := by
  obtain ⟨before, hanswers, hbefore⟩ := h
  obtain ⟨later, hanswers', hlater⟩ := h'
  exact ⟨before ++ later, List.forall_mem_append.mpr ⟨hanswers, hanswers'⟩,
    converses_append hbefore hlater⟩

end Sessions

section Requests

variable (request : Request) {ask ask' : Question → Answer} (held : Option DriverSession)

lemma converses_outcome :
    Converses held (request.exchanges ask held) (request.outcome ask held).2 := by
  rcases request with (message | ⟨driver, settings⟩) | table | _ <;> cases held
  case connect.ok.none =>
    simp only [Request.exchanges, Request.question?, Request.outcome, Option.toList_some,
      List.map_cons, List.map_nil]
    cases ask (.connect driver settings) with
    | error message => exact .refused (.silent none)
    | ok rows => exact .granted (.silent _)
  case open.some session => exact .opened (.silent _)
  case disconnect.some session => exact .closed (.silent none)
  all_goals exact .silent _

lemma talks_outcome : Talks held (request.outcome Question.answer held).2 :=
  ⟨_, by simp [Request.exchanges], converses_outcome request held⟩

/-- What the methods of the connection object do is what comes of their requests. -/
lemma outcome_eq :
    (∀ choice, Request.outcome Question.answer (.connect choice) held =
      ((Connection.connect choice held).result.map fun _ => [],
        (Connection.connect choice held).held)) ∧
    (∀ table, Request.outcome Question.answer (.open table) held =
      ((Connection.rows table held).result, (Connection.rows table held).held)) ∧
    Request.outcome Question.answer .disconnect held =
      ((Connection.disconnect held).result.map fun _ => [],
        (Connection.disconnect held).held) := by
  refine ⟨?_, ?_, ?_⟩
  · rintro (message | ⟨driver, settings⟩)
    · cases held <;> rfl
    · cases held with
      | some session => rfl
      | none =>
        simp only [Request.outcome, Question.answer, Connection.connect]
        cases driver.connect settings <;> rfl
  · intro table
    cases held <;> rfl
  · cases held with
    | none => rfl
    | some session =>
      simp only [Request.outcome, Question.answer, Connection.disconnect]
      cases session.driver.close session.settings session.calls <;> rfl

end Requests

end Proofs

end XBase
