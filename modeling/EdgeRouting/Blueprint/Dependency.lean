import EdgeRouting.Blueprint.Basic

/-!
# Dependencies

The relation between the resources of a blueprint that its layers have to respect: how far down
dependencies reach, which of them run in a circle, and what else keeps a resource from being
written.
-/

namespace EdgeRouting.Blueprint

/-- A planned resource depends on another one directly. -/
def DependsOn (b : Blueprint) (k d : ResourceKey) : Prop :=
  ∃ i ∈ b.items, i.key = k ∧ d ∈ i.dependsOn

/-- A resource depends on another one over some number of steps, at least one. -/
inductive Needs (b : Blueprint) : ResourceKey → ResourceKey → Prop where
  | direct {k d : ResourceKey} : b.DependsOn k d → Needs b k d
  | later {k d e : ResourceKey} : b.DependsOn k d → Needs b d e → Needs b k e

/-- No resource needs itself. -/
def Acyclic (b : Blueprint) : Prop := ∀ k, ¬ b.Needs k k

/-- Following dependencies from a resource can lead into a circle. -/
def ReachesCycle (b : Blueprint) (k : ResourceKey) : Prop :=
  b.Needs k k ∨ ∃ d, b.Needs k d ∧ b.Needs d d

/-- A resource is listed, and so are all that it depends on, and all that these depend on, until
there is nothing to depend on: it can be written once they have been. -/
inductive CanBeWritten (b : Blueprint) : ResourceKey → Prop where
  | intro {k : ResourceKey} :
    k ∈ b.items.map Item.key → (∀ d, b.DependsOn k d → CanBeWritten b d) → CanBeWritten b k

/-- There is a chain of so many dependencies that begins with a resource. -/
inductive HasChain (b : Blueprint) : ResourceKey → Nat → Prop where
  | nil (k : ResourceKey) : HasChain b k 0
  | cons {k d : ResourceKey} {n : Nat} :
    b.DependsOn k d → HasChain b d n → HasChain b k (n + 1)

/-- The longest chain of dependencies that begins with a resource has this length. -/
def IsDepth (b : Blueprint) (k : ResourceKey) (n : Nat) : Prop :=
  b.HasChain k n ∧ ∀ m, b.HasChain k m → m ≤ n

/-- Every resource is listed once. -/
def ListsOnce (b : Blueprint) : Prop := (b.items.map Item.key).Nodup

/-- Every dependency is listed. -/
def IsClosed (b : Blueprint) : Prop :=
  ∀ i ∈ b.items, ∀ d ∈ i.dependsOn, d ∈ b.items.map Item.key

/-- The first resource in the order of the blueprint that has been listed before. -/
def IsFirstRepeated (b : Blueprint) (k : ResourceKey) : Prop :=
  ∃ before after, b.items.map Item.key = before ++ k :: after ∧ before.Nodup ∧ k ∈ before

/-- The first resource in the order of the blueprint with a dependency that is not listed, and the
first such dependency of it. -/
def IsFirstMissing (b : Blueprint) (k d : ResourceKey) : Prop :=
  ∃ before i after listed rest, b.items = before ++ i :: after ∧ i.key = k
    ∧ i.dependsOn = listed ++ d :: rest
    ∧ (∀ j ∈ before, ∀ e ∈ j.dependsOn, e ∈ b.items.map Item.key)
    ∧ (∀ e ∈ listed, e ∈ b.items.map Item.key) ∧ d ∉ b.items.map Item.key

end EdgeRouting.Blueprint
