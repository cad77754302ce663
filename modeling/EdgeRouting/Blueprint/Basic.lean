import EdgeRouting.EdgeLogic

/-!
# Blueprints

A blueprint lists the resources of a deployment with the resources that each depends on. Its layers
are an order in which they can be written: a resource stands in the first layer in which everything
it depends on has been placed. Layers exist unless a resource is listed twice, a dependency is not
listed, or resources depend on each other in a circle.
-/

namespace EdgeRouting

/-- A resource with what has to be written before it. -/
structure Blueprint.Item where
  resource : Resource
  dependsOn : List ResourceKey
  deriving Repr, DecidableEq

def Blueprint.Item.key (i : Blueprint.Item) : ResourceKey := i.resource.key

structure Blueprint where
  items : List Blueprint.Item
  deriving Repr, DecidableEq

/-- Why a blueprint has no layers. -/
inductive Blueprint.Fault where
  | missingDependency (resource dependency : ResourceKey)
  | cycle (members : List ResourceKey)
  | duplicate (resource : ResourceKey)
  deriving Repr, DecidableEq

def Blueprint.Fault.message : Blueprint.Fault → String
  | .missingDependency resource dependency =>
    resource.text ++ " depends on " ++ dependency.text ++ ", which is not in the plan"
  | .cycle members => "dependency cycle among " ++ ", ".intercalate (members.map ResourceKey.text)
  | .duplicate resource => resource.text ++ " is planned more than once"

/-- The resources that an error is about. -/
def Blueprint.Fault.about : Blueprint.Fault → List ResourceKey
  | .missingDependency resource dependency => [resource, dependency]
  | .cycle members => members
  | .duplicate resource => [resource]

namespace Blueprint

def empty : Blueprint := ⟨[]⟩

def add (b : Blueprint) (resource : Resource) (dependsOn : List ResourceKey) : Blueprint :=
  ⟨b.items ++ [⟨resource, dependsOn⟩]⟩

/-! ## The blueprint of a routing set -/

def conditionKey : ResourceKey := ⟨.condition, falseCondition⟩

def tableKey : ResourceKey := ⟨.dictionary, Selector.priorityTableName⟩

/-- The backend of a target needs its health check and the condition. -/
def backendItem (t : Target) : Item :=
  ⟨.backend (.ofTarget t), [⟨.healthCheck, t.healthCheckName⟩, conditionKey]⟩

/-- A fragment of logic needs every backend and the table of priorities. -/
def fragmentItem (targets : List Target) (f : Fragment) : Item :=
  ⟨.snippet f.snippet, targets.map (fun t => ⟨.backend, t.name⟩) ++ [tableKey]⟩

/-- All that serves the fragments from the targets. -/
def ofTargets (targets : List Target) (fragments : List Fragment) (checkPath : String) :
    Blueprint :=
  ⟨[⟨.condition .never, []⟩, ⟨.dictionary ⟨Selector.priorityTableName, false⟩, []⟩]
    ++ targets.map (fun t => ⟨.healthCheck (.ofTarget t checkPath), []⟩)
    ++ targets.map backendItem
    ++ fragments.map (fragmentItem targets)⟩

/-! ## Layers -/

/-- The first key that occurs in `seen` or earlier in the list. -/
def firstRepeated (seen : List ResourceKey) : List ResourceKey → Option ResourceKey
  | [] => none
  | k :: r => if k ∈ seen then some k else firstRepeated (k :: seen) r

/-- The first item with a dependency outside `keys`, and the first such dependency. -/
def firstMissing (keys : List ResourceKey) : List Item → Option (ResourceKey × ResourceKey)
  | [] => none
  | i :: r =>
    match i.dependsOn.find? fun d => !keys.contains d with
    | some d => some (i.key, d)
    | none => firstMissing keys r

/-- Whether everything an item depends on has been placed. -/
def isReady (placed : List ResourceKey) (i : Item) : Bool := i.dependsOn.all placed.contains

/-- The items that can be written next. -/
def ready (placed : List ResourceKey) (items : List Item) : List Item :=
  items.filter (isReady placed)

/-- The items that have to wait. -/
def blocked (placed : List ResourceKey) (items : List Item) : List Item :=
  items.filter fun i => !isReady placed i

theorem length_blocked_lt {placed : List ResourceKey} {items : List Item}
    (h : ready placed items ≠ []) : (blocked placed items).length < items.length := by
  obtain ⟨i, hi⟩ := List.exists_mem_of_ne_nil _ h
  obtain ⟨hmem, hready⟩ := List.mem_filter.1 hi
  refine Nat.lt_of_le_of_ne (List.length_filter_le _ _) fun heq => ?_
  have := List.length_filter_eq_length_iff.1 heq i hmem
  simp [hready] at this

/-- Places items layer by layer; items of which none is ready form a circle. -/
def layersFrom (placed : List ResourceKey) (items : List Item) :
    Except Fault (List (List Item)) :=
  if items.isEmpty then .ok []
  else if _h : ready placed items = [] then
    .error (.cycle ((blocked placed items).map Item.key))
  else do
    let later ← layersFrom (placed ++ (ready placed items).map Item.key) (blocked placed items)
    .ok (ready placed items :: later)
termination_by items.length
decreasing_by exact length_blocked_lt _h

/-- The layers of a blueprint, or the first reason why there are none. -/
def layers (b : Blueprint) : Except Fault (List (List Item)) :=
  let keys := b.items.map Item.key
  match firstRepeated [] keys with
  | some k => .error (.duplicate k)
  | none =>
    match firstMissing keys b.items with
    | some (item, dependency) => .error (.missingDependency item dependency)
    | none => layersFrom [] b.items

end Blueprint

end EdgeRouting
