import PageCheck.Batch.Basic
import PageCheck.Proofs.Dispatch.Basic

/-! # What a batch comes to

The three results of a batch, each read off the documents that it opens. A document's run in a batch
is the run on a dispatcher of its own: of all that the runs before it have left behind, only the
calls that they made count, since the services may remember those.
-/

namespace PageCheck

/-- What a run hands over, on a dispatcher of its own. -/
def Delivery.alone (options : StyleOptions) (answer : Request → Outcome) (doc : Document) :
    Delivery :=
  let run := (Dispatcher.new .empty options).validate (some doc) answer
  ⟨doc, run.dispatcher.panel.entries, run.status⟩

@[simp] theorem Delivery.document_alone (options : StyleOptions) (answer : Request → Outcome)
    (doc : Document) : (alone options answer doc).document = doc := rfl

def callsFor (options : StyleOptions) (docs : List Document) : List Request :=
  docs.filterMap (Dispatcher.new .empty options).request?

/-- What runs on some documents hand over, each on a dispatcher of its own. The services answer as
    `calls` and the calls for the documents before have left them. -/
def runsAlone (services : Course) (options : StyleOptions) (calls : List Request)
    (docs : List Document) : List Delivery :=
  docs.mapIdx fun place doc =>
    .alone options (services (calls ++ callsFor options (docs.take place))).answer doc

section RunsAlone

variable (services : Course) (options : StyleOptions) (calls : List Request)

@[simp] theorem callsFor_nil : callsFor options [] = [] := rfl

@[simp] theorem callsFor_cons (doc : Document) (rest : List Document) :
    callsFor options (doc :: rest) =
      ((Dispatcher.new .empty options).request? doc).toList ++ callsFor options rest := by
  cases asked : (Dispatcher.new .empty options).request? doc <;> simp [callsFor, asked]

@[simp] theorem runsAlone_nil : runsAlone services options calls [] = [] := rfl

@[simp] theorem runsAlone_cons (doc : Document) (rest : List Document) :
    runsAlone services options calls (doc :: rest) =
      .alone options (services calls).answer doc ::
        runsAlone services options
          (calls ++ ((Dispatcher.new .empty options).request? doc).toList) rest := by
  simp only [runsAlone, List.mapIdx_cons, List.take_zero, List.take_succ_cons, callsFor_nil,
    callsFor_cons, List.append_assoc, List.append_nil]

theorem map_document_runsAlone (docs : List Document) :
    (runsAlone services options calls docs).map Delivery.document = docs := by
  induction docs generalizing calls with
  | nil => rfl
  | cons doc rest ih => rw [runsAlone_cons, List.map_cons, ih, Delivery.document_alone]

end RunsAlone

namespace FileTree

variable (tree : FileTree) (services : Course) (root : String) (grammar : Option String)

def Opens (file : String) : Prop :=
  ∃ doc, tree.openDocument file root grammar = .ok doc

instance (file : String) : Decidable (tree.Opens root grammar file) :=
  match found : tree.openDocument file root grammar with
  | .ok doc => isTrue ⟨doc, found⟩
  | .error _ => isFalse (by simp [Opens, found])

/-- The documents of the files before the first one that cannot be opened. -/
def opened : List String → List Document
  | [] => []
  | file :: rest =>
    match tree.openDocument file root grammar with
    | .error _ => []
    | .ok doc => doc :: opened rest

/-- The problem with the first file that cannot be opened. -/
def obstacle? : List String → Option Problem
  | [] => none
  | file :: rest =>
    match tree.openDocument file root grammar with
    | .error fault => some (.unreadableDocument file fault)
    | .ok _ => obstacle? rest

end FileTree

def Verdict.onAll (deliveries : List Delivery) : Verdict :=
  if ∃ delivery ∈ deliveries, delivery.status.isFailing then .failing else .clean

namespace Verdict

theorem onAll_eq_failing_iff {deliveries : List Delivery} :
    onAll deliveries = failing ↔ ∃ delivery ∈ deliveries, delivery.status.isFailing := by
  unfold onAll
  split <;> simp [*]

theorem eq_of_failing_iff {first second : Verdict}
    (same : first = failing ↔ second = failing) : first = second := by
  cases first <;> cases second <;> simp at same <;> rfl

@[simp] theorem onAll_cons (first : Delivery) (rest : List Delivery) :
    onAll (first :: rest) = (ofStatus first.status).worse (onAll rest) := by
  apply eq_of_failing_iff
  rw [worse_eq_failing_iff, ofStatus_eq_failing_iff, onAll_eq_failing_iff, onAll_eq_failing_iff]
  simp

end Verdict

namespace FileTree

variable {tree : FileTree} {services : Course} {root : String} {grammar : Option String}

theorem opened_cons_of_ok {file : String} {rest : List String} {doc : Document}
    (found : tree.openDocument file root grammar = .ok doc) :
    tree.opened root grammar (file :: rest) = doc :: tree.opened root grammar rest := by
  rw [opened, found]

theorem obstacle?_cons_of_ok {file : String} {rest : List String} {doc : Document}
    (found : tree.openDocument file root grammar = .ok doc) :
    tree.obstacle? root grammar (file :: rest) = tree.obstacle? root grammar rest := by
  rw [obstacle?, found]

/-- Where all files can be opened, each of them gives its document. -/
theorem map_ok_opened {files : List String}
    (openable : ∀ file ∈ files, tree.Opens root grammar file) :
    (tree.opened root grammar files).map Except.ok =
      files.map (tree.openDocument · root grammar) := by
  induction files with
  | nil => rfl
  | cons file rest ih =>
      obtain ⟨⟨doc, found⟩, others⟩ := List.forall_mem_cons.mp openable
      rw [opened_cons_of_ok found, List.map_cons, List.map_cons, found, ih others]

theorem obstacle?_eq_none_iff {files : List String} :
    tree.obstacle? root grammar files = none ↔ ∀ file ∈ files, tree.Opens root grammar file := by
  induction files with
  | nil => simp [obstacle?]
  | cons file rest ih =>
      cases found : tree.openDocument file root grammar with
      | error fault => simp [obstacle?, Opens, found]
      | ok doc => simp [obstacle?_cons_of_ok found, ih, Opens, found]

/-- What comes behind a file that cannot be opened is not looked at. -/
theorem stops_at_unreadable {before : List String} {bad : String} {fault : Fault}
    (openable : ∀ file ∈ before, tree.Opens root grammar file)
    (unreadable : tree.openDocument bad root grammar = .error fault) (later : List String) :
    tree.opened root grammar (before ++ bad :: later) = tree.opened root grammar before ∧
      tree.obstacle? root grammar (before ++ bad :: later) =
        some (.unreadableDocument bad fault) := by
  induction before with
  | nil => simp [opened, obstacle?, unreadable]
  | cons file rest ih =>
      obtain ⟨⟨doc, found⟩, others⟩ := List.forall_mem_cons.mp openable
      obtain ⟨documents, problem⟩ := ih others
      rw [List.cons_append, opened_cons_of_ok found, opened_cons_of_ok found,
        obstacle?_cons_of_ok found, documents]
      exact ⟨rfl, problem⟩

/-- A batch on any dispatcher, in terms of runs on dispatchers of their own. -/
theorem batchFrom_eq (dispatcher : Dispatcher) (calls : List Request) (files : List String) :
    tree.batchFrom services root grammar dispatcher calls files =
      let docs := tree.opened root grammar files
      let deliveries := runsAlone services dispatcher.options calls docs
      { deliveries
        calls := callsFor dispatcher.options docs
        verdict := match tree.obstacle? root grammar files with
          | some problem => .error problem
          | none => .ok (.onAll deliveries) } := by
  induction files generalizing dispatcher calls with
  | nil => rfl
  | cons file rest ih =>
      rw [batchFrom]
      cases found : tree.openDocument file root grammar with
      | error fault => simp [opened, obstacle?, found, Batch.ended]
      | ok doc =>
          have same : dispatcher.options = (Dispatcher.new .empty dispatcher.options).options := rfl
          obtain ⟨status, entries⟩ :=
            Dispatcher.validate_congr same doc (services calls).answer
          have handed : Delivery.alone dispatcher.options (services calls).answer doc =
              ⟨doc,
                (dispatcher.validate (some doc) (services calls).answer).dispatcher.panel.entries,
                (dispatcher.validate (some doc) (services calls).answer).status⟩ := by
            rw [Delivery.alone, status, entries]
          simp only [Batch.after, ih, Dispatcher.options_validate, Dispatcher.call_validate,
            opened_cons_of_ok found, obstacle?_cons_of_ok found, runsAlone_cons, callsFor_cons,
            handed, Dispatcher.request?_congr same, Verdict.onAll_cons]
          cases tree.obstacle? root grammar rest <;> rfl

theorem batch_eq (options : StyleOptions) (files : List String) :
    tree.batch services root grammar options files =
      let docs := tree.opened root grammar files
      let deliveries := runsAlone services options [] docs
      { deliveries
        calls := callsFor options docs
        verdict := match tree.obstacle? root grammar files with
          | some problem => .error problem
          | none => .ok (.onAll deliveries) } :=
  batchFrom_eq (.new .empty options) [] files

end FileTree

end PageCheck
