import NodeTrace.Automaton.Dot
import NodeTrace.Proofs.Dispatch
import NodeTrace.Proofs.Shape

/-!
# Contexts do not influence each other

The automaton of a context is a function of the visits of this context (`Automata.automaton?_eq`), so frames of other
contexts and frames of other kinds may stand between them in whatever way.  Frames with the same visits in every context
give the same automata, which stand in the order in which their contexts first came (`Automata.perm_of_visits`).
-/

namespace NodeTrace

theorem mem_contexts_iff {context : UInt16} {frames : List Frame} :
    context ∈ contexts frames ↔ visits context frames ≠ [] := by
  refine ⟨visits_ne_nil, fun hne => ?_⟩
  by_contra hnot
  exact hne (visits_of_not_mem hnot)

namespace Automata

/-- The automaton of a context depends on nothing but the visits of this context. -/
theorem automaton?_eq (frames : List Frame) (context : UInt16) : (observed frames).automaton? context =
    if visits context frames = [] then none else some (.ofVisits context (visits context frames)) := by
  rw [automaton?_observed]
  by_cases h : visits context frames = []
  · rw [if_pos h, if_neg fun hmem => mem_contexts_iff.1 hmem h]
  · rw [if_neg h, if_pos (mem_contexts_iff.2 h)]

/-- Frames with the same visits in every context give the same automata, perhaps in another order. -/
theorem perm_of_visits {frames frames' : List Frame}
    (h : ∀ context, visits context frames' = visits context frames) :
    (observed frames').automata.Perm (observed frames).automata := by
  have hcontexts : (contexts frames').eraseDups.Perm (contexts frames).eraseDups := by
    refine (List.perm_ext_iff_of_nodup (Keyed.nodup_eraseDups _) (Keyed.nodup_eraseDups _)).2 fun context => ?_
    rw [List.mem_eraseDups, List.mem_eraseDups, mem_contexts_iff, mem_contexts_iff, h]
  have heach : (fun context => Automaton.ofVisits context (visits context frames')) =
      fun context => Automaton.ofVisits context (visits context frames) := by
    funext context
    rw [h]
  unfold observed
  rw [heach]
  exact hcontexts.map _

end Automata

/-- Two sequences of frames that have the same visits in a context, whatever else stands between these, leave the same
automaton of this context, or none, and so the same graph of it.  If they have the same visits in every context, they
leave the same automata, and what is written of them differs at most in the order of the graphs. -/
theorem contexts_independent (frames frames' : List Frame) : ∃ m m' : Automata,
    Automata.handler.handleAll .endOfStream 0 frames {} = (.ok frames.length, m) ∧
    Automata.handler.handleAll .endOfStream 0 frames' {} = (.ok frames'.length, m') ∧
    (∀ context, visits context frames' = visits context frames →
      m'.automaton? context = m.automaton? context ∧
      ∀ names metric, (m'.automaton? context).map (·.lines names metric) =
        (m.automaton? context).map (·.lines names metric)) ∧
    ((∀ context, visits context frames' = visits context frames) →
      m'.automata.Perm m.automata ∧
      ∀ names metric, ∃ order : List Automaton, order.Perm m.automata ∧
        m'.lines names metric = order.flatMap (·.lines names metric)) := by
  refine ⟨_, _, Handler.handleAll_endOfStream Automata.handle_observed frames,
    Handler.handleAll_endOfStream Automata.handle_observed frames', fun context hvisits => ?_, fun hvisits => ?_⟩
  · have hsame : (Automata.observed frames').automaton? context = (Automata.observed frames).automaton? context := by
      rw [Automata.automaton?_eq, Automata.automaton?_eq, hvisits]
    exact ⟨hsame, fun names metric => by rw [hsame]⟩
  · have hperm := Automata.perm_of_visits hvisits
    exact ⟨hperm, fun names metric => ⟨_, hperm, rfl⟩⟩

/-- Two contexts that enter the same state, one after the other. -/
def inTurn : List Frame :=
  [⟨{}, .monitorState ⟨1, 0, 5⟩⟩, ⟨{}, .monitorState ⟨1, 0, 6⟩⟩, ⟨{}, .monitorState ⟨2, 0, 5⟩⟩]

/-- The same visits with another entity and a node event among them, the second context first. -/
def mixedUp : List Frame :=
  [⟨{}, .monitorState ⟨2, 8, 5⟩⟩, ⟨{}, .monitorState ⟨1, 8, 5⟩⟩, ⟨{}, .nodeCreate⟩, ⟨{}, .monitorState ⟨1, 9, 6⟩⟩]

theorem contexts_independent_mixedUp : (∀ context, visits context mixedUp = visits context inTurn) ∧ ∃ m m' : Automata,
    Automata.handler.handleAll .endOfStream 0 inTurn {} = (.ok 3, m) ∧
    Automata.handler.handleAll .endOfStream 0 mixedUp {} = (.ok 4, m') ∧
    m'.automaton? 1 = m.automaton? 1 ∧ m'.automata.Perm m.automata := by
  have hvisits (context : UInt16) : visits context mixedUp = visits context inTurn := by
    unfold visits mixedUp inTurn
    by_cases h₁ : 1 = context
    · subst h₁
      rfl
    · by_cases h₂ : 2 = context <;> simp [Frame.visit?, h₁, h₂]
  obtain ⟨m, m', hm, hm', heach, hall⟩ := contexts_independent inTurn mixedUp
  exact ⟨hvisits, m, m', hm, hm', (heach 1 (hvisits 1)).1, (hall hvisits).1⟩

end NodeTrace
