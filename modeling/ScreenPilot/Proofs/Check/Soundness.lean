import ScreenPilot.Proofs.Check.Verdict
import ScreenPilot.Proofs.Run.Known

/-!
# What the check of a graph is worth

A graph without unknown references lets the checker end well, and no run from
one of its nodes fails for want of a node. The runs may share the engine with
others that do anything at any time, every answer of the outside may come, and
an interpreter may have been used before.
-/

set_option autoImplicit false

namespace ScreenPilot

namespace Check

open Activity

/-- **A graph without unknown references passes the check with any of its nodes
as the entry, and no run from there comes to a name that no node has.** -/
theorem runs_resolve_of_no_unknown {graph : Graph} {entry : String}
    (here : graph.contains entry = true)
    (noUnknown : ∀ node target, .unknownReference node target ∉ graph.issues) :
    (∀ (usual : Option String) (day : CalendarDay) (arguments : List String) (options : Options)
        (ending : Ending) (final : Resource),
      Command.of arguments = .check options → options.entries = [entry] →
      (run usual day arguments).Ends .alone default ending final →
      final.loaded = true → final.graph = graph → ending.code = 0) ∧
    ∀ (context : RunContext) (memory memory' : Memory) (engine final : Engine)
        (result : RunResult),
      context.graph = graph → context.Remembers memory →
      (context.run memory entry).Ends .anything engine (memory', result) final →
      ∀ name, result ≠ .ended (.failed (.unknownNode name)) := by
  have closed : graph.Closed := Graph.closed_iff_no_unknown.mpr noUnknown
  constructor
  · intro usual day arguments options ending final command only ends loaded same
    refine (run_code_zero_iff command ends loaded).mpr ⟨?_, ?_⟩
    · rw [same]
      exact closed
    · intro other listed
      rw [only, List.mem_singleton] at listed
      rw [same, listed]
      exact here
  · rintro context memory memory' engine final result rfl remembers ends
    exact (RunContext.run_resolved closed (remembers.known closed) here ends).2

/-- The graph of one node that goes on with itself. -/
def loop : Graph := Graph.empty.insert { Node.ofDefaults "A" default with next := ["A"] }

theorem runs_resolve_on_loop :
    loop.contains "A" = true ∧ (∀ node target, .unknownReference node target ∉ loop.issues) ∧
      ∀ (context : RunContext) (memory : Memory) (engine final : Engine) (result : RunResult),
        context.graph = loop →
        (context.run .empty "A").Ends .anything engine (memory, result) final →
        result ≠ .ended (.failed (.unknownNode "A")) := by
  have here : loop.contains "A" = true := Graph.contains_insert.mpr (.inl rfl)
  have closed : loop.Closed := by
    refine Graph.closed_empty.insert fun target listed => ?_
    rw [show target = "A" from List.mem_singleton.mp listed]
    exact here
  have noUnknown := Graph.closed_iff_no_unknown.mp closed
  refine ⟨here, noUnknown, ?_⟩
  intro context memory engine final result same ends
  exact (runs_resolve_of_no_unknown here noUnknown).2 context .empty memory engine final result
    same .nothing ends "A"

end Check

end ScreenPilot
