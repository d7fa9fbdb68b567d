import PageCheck.Dispatch.Basic

/-! # Histories

Sequences of steps on one dispatcher, in any order: runs may overlap, and an invocation may be
completed late, twice, or with another one's token.
-/

namespace PageCheck

/-- The services, as far as one run can tell. -/
structure Services where
  markup : String → Except Failure MarkupAnswer
  style : String → StyleOptions → Except Failure StyleAnswer

def Services.answer (services : Services) : Request → Outcome
  | .markup text => .markup (services.markup text)
  | .style text options => .style (services.style text options)

namespace Dispatcher

inductive Step where
  | begin (document : Option Document)
  | complete (document : Document) (invocation : Invocation) (outcome : Outcome)
  | validate (document : Option Document) (services : Services)

inductive Reply where
  | invocation (invocation : Option Invocation)
  | status (status : Status)
  | run (status : Status) (call : Option Request)
  deriving DecidableEq, Repr

def step (dispatcher : Dispatcher) : Step → Dispatcher × Reply
  | .begin document =>
    let (next, invocation) := dispatcher.begin document
    (next, .invocation invocation)
  | .complete document invocation outcome =>
    let (next, status) := dispatcher.complete document invocation outcome
    (next, .status status)
  | .validate document services =>
    let run := dispatcher.validate document services.answer
    (run.dispatcher, .run run.status run.call)

/-- Take the steps of a history one after another, and collect what they return. -/
def run (dispatcher : Dispatcher) : List Step → Dispatcher × List Reply
  | [] => (dispatcher, [])
  | first :: rest =>
    let (next, reply) := dispatcher.step first
    let (last, replies) := next.run rest
    (last, reply :: replies)

end Dispatcher

end PageCheck
