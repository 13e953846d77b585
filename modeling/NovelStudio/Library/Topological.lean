import Mathlib.Data.Fintype.Card
import Mathlib.Data.List.Nodup
import Mathlib.Data.List.Perm.Subperm
import Mathlib.Data.Set.Finite.List
import Mathlib.Logic.Relation

/-! Orders of the nodes of a graph in which every node stands after its sources. -/

namespace NovelStudio.Library

variable {α : Type*}

/-- Every node of the order stands after the sources of its edges. -/
def Respects (edges : List (α × α)) (order : List α) : Prop :=
  ∀ ⦃before node after⦄, order = before ++ node :: after → ∀ ⦃source⦄, (source, node) ∈ edges → source ∈ before

theorem respects_nil (edges : List (α × α)) : Respects edges [] := by
  intro before node after same
  simp at same

variable {edges : List (α × α)} {order : List α}

theorem Respects.snoc (respects : Respects edges order)
    (held : ∀ {source}, (source, node) ∈ edges → source ∈ order) : Respects edges (order ++ [node]) := by
  intro before last after same source edge
  rcases List.eq_nil_or_concat after with rfl | ⟨rest, final, rfl⟩
  · obtain ⟨rfl, single⟩ := List.append_inj' same rfl
    cases single
    exact held edge
  · have split : order ++ [node] = (before ++ last :: rest) ++ [final] := by simpa using same
    obtain ⟨rfl, _⟩ := List.append_inj' split rfl
    exact respects rfl edge

theorem Respects.of_subset {fewer : List (α × α)} (respects : Respects edges order)
    (subset : ∀ {edge}, edge ∈ fewer → edge ∈ edges) : Respects fewer order :=
  fun _ _ _ same _ edge => respects same (subset edge)

theorem Respects.sources {before after : List α}
    (respects : Respects edges (before ++ node :: after)) (edge : (source, node) ∈ edges) : source ∈ before :=
  respects rfl edge

abbrev Precedes (edges : List (α × α)) (source target : α) : Prop := (source, target) ∈ edges

def Acyclic (edges : List (α × α)) : Prop := ∀ node, ¬ Relation.TransGen (Precedes edges) node node

theorem Acyclic.of_subset {fewer : List (α × α)} (acyclic : Acyclic edges) (subset : ∀ {edge}, edge ∈ fewer → edge ∈ edges) :
    Acyclic fewer := by
  intro node cycle
  have whole : Precedes fewer ≤ Precedes edges := fun _ _ edge => subset edge
  exact acyclic node (Relation.TransGen.mono whole node node cycle)

theorem Respects.earlier (respects : Respects edges order)
    (path : Relation.TransGen (Precedes edges) source node) :
    ∀ {before after}, order = before ++ node :: after → source ∈ before := by
  induction path with
  | single edge =>
    intro before after same
    exact respects same edge
  | tail _ edge ih =>
    intro before after same
    obtain ⟨first, second, rfl⟩ := List.append_of_mem (respects same edge)
    have there : source ∈ first := ih (by rw [same, List.append_assoc, List.cons_append])
    exact List.mem_append_left _ there

theorem Respects.earlier_filter {keep : α → Bool} (respects : Respects edges order)
    (path : Relation.TransGen (Precedes edges) source node) (kept : keep source = true)
    (same : order.filter keep = before ++ node :: after) : source ∈ before := by
  obtain ⟨first, rest, rfl, rfl, later⟩ := List.filter_eq_append_iff.mp same
  obtain ⟨skipped, behind, rfl, none, _, _⟩ := List.filter_eq_cons_iff.mp later
  have there : source ∈ first ++ skipped := respects.earlier path (by rw [List.append_assoc])
  rcases List.mem_append.mp there with early | between
  · exact List.mem_filter.mpr ⟨early, kept⟩
  · exact absurd kept (none source between)

theorem Respects.acyclic (respects : Respects edges order) (distinct : order.Nodup)
    (known : ∀ edge ∈ edges, edge.2 ∈ order) : Acyclic edges := by
  intro node cycle
  have member : node ∈ order := by
    obtain ⟨_, _, edge⟩ := Relation.TransGen.tail'_iff.mp cycle
    exact known _ edge
  obtain ⟨before, after, rfl⟩ := List.append_of_mem member
  have twice : node ∈ before := respects.earlier cycle rfl
  exact (List.nodup_append.mp distinct).2.2 node twice node (List.mem_cons_self ..) rfl

theorem Acyclic.exists_first {nodes : List α} (acyclic : Acyclic edges) (member : node ∈ nodes) :
    ∃ first ∈ nodes, ∀ source ∈ nodes, ¬ Precedes edges source first := by
  let earlier (one two : {node // node ∈ nodes}) : Prop := Relation.TransGen (Precedes edges) one.1 two.1
  have transitive : IsTrans _ earlier := ⟨fun _ _ _ first second => first.trans second⟩
  have irreflexive : Std.Irrefl earlier := ⟨fun one cycle => acyclic one.1 cycle⟩
  have finite : Finite {node // node ∈ nodes} := List.finite_toSet nodes
  obtain ⟨first, _, least⟩ := (Finite.wellFounded_of_trans_of_irrefl earlier).has_min Set.univ ⟨⟨node, member⟩, trivial⟩
  refine ⟨first.1, first.2, ?_⟩
  intro source there edge
  exact least ⟨source, there⟩ trivial (.single edge)

end NovelStudio.Library
