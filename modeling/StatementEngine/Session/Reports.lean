import StatementEngine.Task.Sink

/-!
# Reporting failures by hand

**A host may report failures to a sink itself**, and locate errors step by step.
-/

namespace StatementEngine

/-- A step on a sink. -/
inductive SinkCommand where
  | report (f : Failure)
  | failures
  | take
  | describe

/-- The answer to a step on a sink. -/
inductive SinkReply where
  | done
  | failures (kept delivered : List Failure)
  | description (text : String)

namespace Sink

/-- Carries out a step. -/
def step (s : Sink) : SinkCommand → SinkReply × Sink
  | .report f => (.done, s.report f)
  | .failures => (.failures s.kept.toList s.delivered.toList, s)
  | .take =>
    let (kept, s) := s.take
    (.failures kept.toList s.delivered.toList, s)
  | .describe => (.description s.describe, s)

/-- Carries out steps one after the other. -/
def steps (s : Sink) : List SinkCommand → List SinkReply
  | [] => []
  | c :: rest =>
    let (reply, s) := s.step c
    reply :: s.steps rest

end Sink

/-- A way of giving an error a position. -/
inductive LocateCommand where
  /-- Sets the position. -/
  | set (p : Position)
  /-- Sets the position if there is none. -/
  | fill (p : Position)

namespace EngineError

def step (e : EngineError) : LocateCommand → EngineError
  | .set p => e.locate p
  | .fill p => e.fillPosition p

/-- The error at the start and after each step. -/
def steps (e : EngineError) : List LocateCommand → List EngineError
  | [] => [e]
  | c :: rest => e :: (e.step c).steps rest

end EngineError

/-- What is raised, at the start and after each position that is offered. -/
def Raise.steps (r : Raise) : List Position → List Raise
  | [] => [r]
  | p :: rest => r :: (r.fillPosition p).steps rest

end StatementEngine
