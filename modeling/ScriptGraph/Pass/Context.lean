import ScriptGraph.Function.Catalog
import ScriptGraph.Pass.Event
import ScriptGraph.Slot.Allocation

/-!
# The surroundings of a compilation

What a compilation is given and never changes, and what it carries from one visited node
to the next.
-/
namespace ScriptGraph

structure Options where
  /-- Report edges beyond the first on a branch of a conditional. -/
  warnOnFanOut : Bool := true
  /-- Put the slot of an incoming node in place of the first argument. -/
  substitute : Bool := true
  /-- Branches are followed only while fewer traversal calls than this were made. -/
  maxCalls : Nat := 10000
deriving DecidableEq

instance : Inhabited Options := ⟨{}⟩

/-- The graph, the registry and the options of a compilation. -/
structure Context where
  graph : Graph
  registry : Registry
  options : Options

/-- One step in setting up a compilation. -/
inductive Setting
  /-- Takes another registry, without the functions that were added to the one before. -/
  | registry (r : Registry)
  /-- Adds a function, or replaces the one of its name. -/
  | function (s : Schema)
  | options (o : Options)

namespace Setting

def registry? : Setting → Option Registry
  | registry r => some r
  | _ => none

def function? : Setting → Option Schema
  | function s => some s
  | _ => none

def options? : Setting → Option Options
  | options o => some o
  | _ => none

end Setting

namespace Context

/-- Before anything is set up, a compilation has the built-in functions and the default
options. -/
def ofGraph (g : Graph) : Context := ⟨g, .builtIn, default⟩

def adjust (c : Context) : Setting → Context
  | .registry r => ⟨c.graph, r, c.options⟩
  | .function s => ⟨c.graph, c.registry.register s, c.options⟩
  | .options o => ⟨c.graph, c.registry, o⟩

/-- Takes the steps in order. -/
def adjustAll (c : Context) (settings : List Setting) : Context := settings.foldl adjust c

theorem adjustAll_cons (c : Context) (s : Setting) (rest : List Setting) :
    c.adjustAll (s :: rest) = (c.adjust s).adjustAll rest :=
  rfl

theorem adjustAll_append (c : Context) (xs ys : List Setting) :
    c.adjustAll (xs ++ ys) = (c.adjustAll xs).adjustAll ys :=
  List.foldl_append

theorem graph_adjustAll (c : Context) (settings : List Setting) :
    (c.adjustAll settings).graph = c.graph := by
  induction settings generalizing c with
  | nil => rfl
  | cons s rest ih => cases s <;> exact ih _

/-- The options that were set last count. -/
theorem options_adjustAll (c : Context) (settings : List Setting) :
    (c.adjustAll settings).options =
      (settings.filterMap Setting.options?).getLast?.getD c.options := by
  induction settings generalizing c with
  | nil => rfl
  | cons s rest ih =>
    rw [adjustAll_cons, ih]
    cases s with
    | registry r => rfl
    | function s => rfl
    | options o =>
      have hfirst : (Setting.options o).options? = some o := rfl
      rw [List.filterMap_cons_some hfirst, List.getLast?_cons]
      rfl

/-- Without another registry the functions that are added come to the one that is there. -/
theorem registry_adjustAll (c : Context) {settings : List Setting}
    (h : ∀ s ∈ settings, s.registry? = none) :
    (c.adjustAll settings).registry =
      c.registry.registerAll (settings.filterMap Setting.function?) := by
  induction settings generalizing c with
  | nil => rfl
  | cons s rest ih =>
    have hrest := ih (c.adjust s) fun t ht => h t (List.mem_cons_of_mem _ ht)
    rw [adjustAll_cons, hrest]
    cases s with
    | registry r => cases h (.registry r) List.mem_cons_self
    | function s => rfl
    | options o => rfl

/-- The last registry counts, with the functions that were added after it. -/
theorem registry_adjustAll_replaced (c : Context) (before : List Setting) (r : Registry)
    {after : List Setting} (h : ∀ s ∈ after, s.registry? = none) :
    (c.adjustAll (before ++ .registry r :: after)).registry =
      r.registerAll (after.filterMap Setting.function?) := by
  rw [adjustAll_append, adjustAll_cons, registry_adjustAll _ h]
  rfl

end Context

/-- What one visited node leaves behind for the next. -/
structure Progress where
  allocation : Allocation
  /-- How many traversal calls were made. -/
  calls : Nat
  limitReported : Bool
deriving DecidableEq

/-- A result together with the events on the way to it and the progress after it. -/
structure Emission (α : Type) where
  value : α
  events : List Event
  progress : Progress

end ScriptGraph
