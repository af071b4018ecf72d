import ScreenPilot.Proofs.Check.Verdict
import ScreenPilot.Proofs.Resource.Sharing

/-!
# What loads move

Whoever loads a resource, or puts a graph in place, changes the graph and the two marks that go
with it: that there is one, and that loads are to be given up. Defaults and plug-ins stay
(`Akin`). Each step of a load keeps to that, so what is left of a load does (`Load.Tame`), and so
do all moves of any number of loads that share a resource (`Sharing.LeadsLoading.akin`).
-/

set_option autoImplicit false

namespace ScreenPilot

open Activity

namespace Resource

/-- Two resources differ at most in what loads change. -/
structure Akin (resource other : Resource) : Prop where
  defaults : other.defaults = resource.defaults
  recognitions : other.recognitions = resource.recognitions
  actions : other.actions = resource.actions

@[simp] theorem Akin.refl (resource : Resource) : resource.Akin resource := ⟨rfl, rfl, rfl⟩

theorem Akin.trans {resource other another : Resource} (akin : resource.Akin other)
    (akin' : other.Akin another) : resource.Akin another where
  defaults := akin'.defaults.trans akin.defaults
  recognitions := akin'.recognitions.trans akin.recognitions
  actions := akin'.actions.trans akin.actions

/-! ## The steps of loads -/

theorem steps_publish (graph : Graph) : (publish graph).Steps Akin := by
  apply Steps.bind
  · apply Steps.modify
    intro resource
    exact ⟨rfl, rfl, rfl⟩
  · intro _
    apply Steps.modify
    intro resource
    exact ⟨rfl, rfl, rfl⟩

theorem steps_put (graph : Graph) :
    (publish graph >>= fun _ => pure (.ok ()) : Loading (Outcome Unit)).Steps Akin :=
  (steps_publish graph).bind fun _ => .pure _

theorem steps_loadJson (document : Json) : (loadJson document).Steps Akin := by
  apply Steps.bind (.reads Akin.refl)
  intro defaults
  cases Graph.ofJson defaults document with
  | error error => exact .pure _
  | ok patch =>
    apply Steps.bind (.reads Akin.refl)
    intro graph
    exact steps_put _

theorem steps_loadPaths (paths : List String) : (loadPaths paths).Steps Akin := by
  apply Steps.bind
  · apply Steps.modify
    intro resource
    exact ⟨rfl, rfl, rfl⟩
  · intro _
    apply Steps.bind (.reads Akin.refl)
    intro graph
    apply Steps.bind
    · apply (steps_loadEach graph 0 paths).imp
      rintro resource _ rfl
      exact .refl resource
    · intro outcome
      cases outcome with
      | error error => exact .pure _
      | ok merged => exact steps_put _

/-! ## Loads that move -/

namespace Load

/-- Someone begins a load, or begins to put a graph in place. -/
inductive Starts : Load → Prop where
  | load {load : Load} (begins : load.Begins) : Starts load
  | put (graph : Graph) : Starts ⟨publish graph >>= fun _ => pure (.ok ()), []⟩

/-- What is left of the load changes no more than loads do. -/
def Tame (load : Load) : Prop := load.rest.Steps Akin

theorem Starts.tame {load : Load} (starts : load.Starts) : load.Tame := by
  cases starts with
  | load begins =>
    cases begins with
    | json document => exact steps_loadJson document
    | paths paths => exact steps_loadPaths paths
  | put graph => exact steps_put graph

/-- A move of a load changes no more than loads do, and leaves no more to be done. -/
theorem Tame.moves {load load' : Load} {before after : Resource} (tame : load.Tame)
    (moves : load.Moves before load' after) : before.Akin after ∧ load'.Tame := by
  cases moves with
  | step documents happens =>
    cases happens with
    | step change next => exact tame before
  | told documents resource happens =>
    cases happens with
    | ask => exact ⟨.refl before, tame _⟩

end Load

namespace Sharing

/-- One move of those who load the resource: a load begins, or one that was begun goes on. -/
inductive LoadStep : Sharing → Sharing → Prop where
  | begin {sharing : Sharing} {load : Load} (starts : load.Starts) :
      LoadStep sharing { sharing with loads := sharing.loads ++ [load] }
  | load {sharing : Sharing} {index : Nat} {load load' : Load} {resource : Resource}
      (found : sharing.loads[index]? = some load)
      (moves : load.Moves sharing.resource load' resource) :
      LoadStep sharing ⟨resource, sharing.loads.set index load'⟩

/-- Any number of moves of those who load the resource lead there. -/
abbrev LeadsLoading : Sharing → Sharing → Prop := Relation.ReflTransGen LoadStep

/-- All that is left of the loads changes no more than loads do. -/
def Tame (sharing : Sharing) : Prop := ∀ load ∈ sharing.loads, load.Tame

variable {sharing sharing' : Sharing}

theorem LoadStep.akin (tame : sharing.Tame) (step : sharing.LoadStep sharing') :
    sharing.resource.Akin sharing'.resource ∧ sharing'.Tame := by
  cases step with
  | begin starts =>
    refine ⟨.refl _, fun load member => ?_⟩
    rcases List.mem_append.mp member with earlier | isLast
    · exact tame load earlier
    · rw [List.mem_singleton.mp isLast]
      exact starts.tame
  | load found moves =>
    obtain ⟨akin, tame'⟩ := (tame _ (List.mem_of_getElem? found)).moves moves
    refine ⟨akin, fun load member => ?_⟩
    rcases List.mem_or_eq_of_mem_set member with earlier | rfl
    · exact tame load earlier
    · exact tame'

/-- **Whatever loads do, the rest of the resource stays as it is.** -/
theorem LeadsLoading.akin (tame : sharing.Tame) (leads : sharing.LeadsLoading sharing') :
    sharing.resource.Akin sharing'.resource ∧ sharing'.Tame := by
  induction leads with
  | refl => exact ⟨.refl _, tame⟩
  | tail _ step ih =>
    obtain ⟨akin, tame⟩ := ih
    obtain ⟨akin', tame'⟩ := step.akin tame
    exact ⟨akin.trans akin', tame'⟩

/-- The same resource is reached by no move. -/
theorem leadsLoading_of_same {resource : Resource} (same : resource = sharing.resource) :
    sharing.LeadsLoading { sharing with resource } := by
  rw [same]

/-- A load may move from begin to end while nobody else does. -/
theorem leadsLoading_of_runs {load load' : Load} {resource : Resource} (starts : load.Starts)
    (runs : Runs (load, sharing.resource) (load', resource)) :
    sharing.LeadsLoading ⟨resource, sharing.loads ++ [load']⟩ :=
  .head (.begin starts) (leads_of_runs .load sharing.loads [] runs)

/-- A document that can be read may be loaded at once. -/
theorem leadsLoading_json {document : Json} {patch : Graph}
    (defines : Graph.ofJson sharing.resource.defaults document = .ok patch) :
    sharing.LeadsLoading
      ⟨{ sharing.resource with graph := sharing.resource.graph.merged patch, loaded := true },
        sharing.loads ++ [⟨.done (.ok ()), [document]⟩]⟩ :=
  leadsLoading_of_runs (.load (.json document)) ((runs_loadJson defines).trans (runs_publish _ _ _))

end Sharing

end Resource

end ScreenPilot
