import SegmentSort.Traced

/-!
# Launching worker groups

A kernel is launched on a list of items, one worker group for each.  The groups are run
by workers, each of which keeps a workspace that it uses for all its groups.  Nothing is
promised about who runs which group and when: a `Stream` carries, for every launch, an
`Assignment` of the groups to workers and an order in which they run.  The first group
that fails ends the launch, although some groups may still run that had been started.
-/

namespace SegmentSort

/-- Who runs the groups of a launch, and when. -/
structure Assignment (groups : Nat) where
  /-- The groups in the order in which they run. -/
  order : List (Fin groups)
  /-- The worker that runs a group. -/
  worker : Fin groups → Nat
  /-- How many groups still run after one has failed. -/
  drain : Nat
  /-- Every group runs once. -/
  complete : order.Perm (List.finRange groups)

/-- One worker runs all groups in their order, and stops when one fails. -/
def Assignment.sequential (groups : Nat) : Assignment groups where
  order := List.finRange groups
  worker _ := 0
  drain := 0
  complete := .refl _

/-- A place where kernels are launched one after the other. -/
structure Stream where
  /-- The number of workers. -/
  threads : Nat
  /-- How the groups of a kernel are run. -/
  assignment : (kernel : String) → (groups : Nat) → Assignment groups

/-- A stream of some workers, of which the first does the work. -/
def Stream.sequential (threads : Nat) : Stream where
  threads
  assignment _ groups := .sequential groups

/-- What a group leaves: the workspace of its worker, its item, and its result. -/
structure GroupRun (σ ω : Type) where
  workspace : σ
  item : ω
  result : Except Failure Unit

/-- The state of a launch. -/
structure Progress (groups : Nat) (σ ω : Type) where
  items : Vector ω groups
  /-- The workspaces of the workers that have run a group. -/
  workspaces : List (Nat × σ)
  /-- The first failure. -/
  failure : Option Failure

namespace Progress

variable {groups : Nat} {σ ω : Type}

/-- One group runs, in the workspace of its worker, or in a fresh one if the worker has
not run any group before. -/
def step (fresh : σ) (body : σ → ω → GroupRun σ ω) (worker : Fin groups → Nat)
    (p : Progress groups σ ω) (g : Fin groups) : Progress groups σ ω :=
  let run := body ((p.workspaces.lookup (worker g)).getD fresh) p.items[g]
  { items := p.items.set g run.item
    workspaces := (worker g, run.workspace) :: p.workspaces.filter (·.1 ≠ worker g)
    failure :=
      p.failure.or
        (match run.result with
        | .ok () => none
        | .error e => some e) }

/-- Groups run until one fails, and `drain` groups more. -/
def run (fresh : σ) (body : σ → ω → GroupRun σ ω) (worker : Fin groups → Nat)
    (drain : Nat) : List (Fin groups) → Progress groups σ ω → Progress groups σ ω
  | [], p => p
  | g :: rest, p =>
    let q := p.step fresh body worker g
    if q.failure.isNone then
      run fresh body worker drain rest q
    else
      (rest.take drain).foldl (step fresh body worker) q

end Progress

/-- The items after a launch, and its outcome. -/
structure Launched (ω : Type) where
  items : List ω
  outcome : Traced Unit

/-- Runs one worker group for each item.  Every worker starts with a `fresh` workspace.  A
launch that succeeds is recorded if `debug` asks for it. -/
def Stream.launch {σ ω : Type} (stream : Stream) (kernel : String) (debug : Bool)
    (fresh : σ) (body : σ → ω → GroupRun σ ω) (work : List ω) : Launched ω :=
  let assignment := stream.assignment kernel work.length
  let start : Progress work.length σ ω :=
    { items := ⟨work.toArray, List.size_toArray⟩
      workspaces := []
      failure := none }
  let finish :=
    start.run fresh body assignment.worker assignment.drain assignment.order
  { items := finish.items.toList
    outcome :=
      match finish.failure with
      | none => .emitIf debug (.finished kernel work.length)
      | some e => .ofExcept (.error e) }

end SegmentSort
