import Mathlib.Data.List.Perm.Basic
import Mathlib.Data.Set.Function
import WorkflowCanvas.Proofs.Workflow.Compiled

/-! What compiling does not look at. A graph is recast when its nodes are renamed and its lists
reordered, while identifiers of edges, handles, styles, places, labels and descriptions change at
will. Main statement: a graph and its recast compile to the same workflow, or are both refused for
their structure, or are both refused for loose agents. Recasting goes both ways, so it is enough to
carry over in one direction that nothing is violated, that no agent is loose, and a line with its
steps. -/
namespace WorkflowCanvas
open Relation
set_option autoImplicit false

/-! ## What a payload is apart from how it is shown -/

/-- A payload without its description, and with no label of its own. -/
def Payload.core : Payload → Payload
  | start _ => .start ⟨"", none⟩
  | finish _ => .finish ⟨"", none⟩
  | agent d => .agent { d with label := "", description := none }
  | stepGroup d =>
    .stepGroup { d with label := ⟨d.title.text, d.title.text_ne_empty⟩, description := none }

theorem Payload.kind_core (p : Payload) : p.core.kind = p.kind := by cases p <;> rfl

theorem Payload.becomes_core {p : Payload} {s : Step} : p.core.Becomes s ↔ p.Becomes s := by
  rw [becomes_iff, becomes_iff]
  cases p <;> rfl

theorem Payload.forall₂_becomes_core {ps : List Payload} {steps : List Step} :
    List.Forall₂ Becomes (ps.map core) steps ↔ List.Forall₂ Becomes ps steps := by
  simp only [List.forall₂_map_left_iff, becomes_core]

theorem Node.kind_eq_of_core {m n : Node} (h : m.payload.core = n.payload.core) :
    m.kind = n.kind := by
  rw [Node.kind, Node.kind, ← m.payload.kind_core, ← n.payload.kind_core, h]

/-- A list that a list maps onto in some order, it maps onto in that order once it is reordered. -/
theorem exists_perm_map_eq {α β : Type} {f : α → β} {xs : List α} {ys : List β}
    (h : (xs.map f).Perm ys) : ∃ zs : List α, zs.Perm xs ∧ zs.map f = ys := by
  have hcomp : (Comp (· = List.map f ·) List.Perm) ys xs := by
    rw [List.eq_map_comp_perm]
    exact h.symm
  obtain ⟨zs, hmap, hp⟩ := hcomp
  exact ⟨zs, hp, hmap.symm⟩

namespace Graph
variable {g h : Graph} {rename : String → String}

/-! ## Recasting -/

/-- One graph recast as another: its nodes under new names, in any order and with any place, label
and description, and its edges in any order between the new names, with any identifier, handles and
style. That no two nodes get one name is not asked for: the identifiers of both graphs are distinct
(`Recast.injOn`). -/
structure Recast (rename : String → String) (g h : Graph) : Prop where
  nodes : (h.nodes.map fun n => (n.id, n.payload.core)).Perm
    (g.nodes.map fun n => (rename n.id, n.payload.core))
  edges : (h.edges.map fun e => (e.source, e.target)).Perm
    (g.edges.map fun e => (rename e.source, rename e.target))

namespace Recast

theorem nodeIds (r : Recast rename g h) : h.nodeIds.Perm (g.nodeIds.map rename) := by
  simpa [Graph.nodeIds, Function.comp_def] using r.nodes.map Prod.fst

/-- A renaming between graphs is injective. -/
theorem injOn (r : Recast rename g h) : Set.InjOn rename {a | a ∈ g.nodeIds} := by
  have hn : (g.nodeIds.map rename).Nodup := r.nodeIds.nodup_iff.1 h.nodes_distinct
  intro a ha b hb heq
  exact List.inj_on_of_nodup_map hn ha hb heq

/-- Taking the names back. -/
theorem symm (r : Recast rename g h) : ∃ back, Recast back h g := by
  -- Off the new names of the graph `back` is arbitrary; no node and no edge has such a name.
  let back := Function.invFunOn rename {a | a ∈ g.nodeIds}
  have hback : ∀ a ∈ g.nodeIds, back (rename a) = a := fun a ha =>
    r.injOn.leftInvOn_invFunOn ha
  refine ⟨back, ?_, ?_⟩
  · have hp := (r.nodes.map (Prod.map back id)).symm
    simp only [List.map_map, Function.comp_def, Prod.map_apply, id] at hp
    refine (List.Perm.of_eq ?_).trans hp
    exact List.map_congr_left fun n hn => by rw [hback n.id (id_mem_nodeIds hn)]
  · have hp := (r.edges.map (Prod.map back back)).symm
    simp only [List.map_map, Function.comp_def, Prod.map_apply] at hp
    refine (List.Perm.of_eq ?_).trans hp
    exact List.map_congr_left fun e he => by
      rw [hback e.source (g.anchored e he).1, hback e.target (g.anchored e he).2]

/-- The node that a node was. -/
theorem exists_origin (r : Recast rename g h) {m : Node} (hm : m ∈ h.nodes) :
    ∃ n ∈ g.nodes, m.id = rename n.id ∧ m.payload.core = n.payload.core := by
  have hn : (m.id, m.payload.core) ∈ g.nodes.map fun n => (rename n.id, n.payload.core) :=
    r.nodes.mem_iff.1 (List.mem_map_of_mem (f := fun m => (m.id, m.payload.core)) hm)
  obtain ⟨n, hn, heq⟩ := List.mem_map.1 hn
  exact ⟨n, hn, (congrArg Prod.fst heq).symm, (congrArg Prod.snd heq).symm⟩

/-! ## Paths -/

theorem joins (r : Recast rename g h) {a b : String} (hj : g.Joins a b) :
    h.Joins (rename a) (rename b) := by
  obtain ⟨e, he, rfl, rfl⟩ := hj
  have hm : (rename e.source, rename e.target) ∈ h.edges.map fun f => (f.source, f.target) :=
    r.edges.mem_iff.2 (List.mem_map_of_mem (f := fun e => (rename e.source, rename e.target)) he)
  obtain ⟨f, hf, heq⟩ := List.mem_map.1 hm
  exact ⟨f, hf, congrArg Prod.fst heq, congrArg Prod.snd heq⟩

theorem path (r : Recast rename g h) {a b : String} (hp : ReflTransGen g.Joins a b) :
    ReflTransGen h.Joins (rename a) (rename b) :=
  hp.lift rename fun _ _ => r.joins

/-- A cycle of the recast would be one of the graph under the old names. -/
theorem acyclic (r : Recast rename g h) (hg : ∀ a, ¬ TransGen g.Joins a a) (a : String) :
    ¬ TransGen h.Joins a a := by
  obtain ⟨back, rback⟩ := r.symm
  intro hc
  exact hg (back a) (hc.lift back fun _ _ => rback.joins)

theorem nodup_map_rename (r : Recast rename g h) {ids : List String} (hn : ids.Nodup)
    (hids : ∀ a ∈ ids, a ∈ g.nodeIds) : (ids.map rename).Nodup :=
  hn.map_on fun a ha b hb heq => r.injOn (hids a ha) (hids b hb) heq

theorem unbranched (r : Recast rename g h) (hg : g.Unbranched) : h.Unbranched := by
  obtain ⟨hsources, htargets⟩ := unbranched_iff_nodup.1 hg
  rw [unbranched_iff_nodup]
  constructor
  · have hp : (h.edges.map Edge.source).Perm ((g.edges.map Edge.source).map rename) := by
      simpa [Function.comp_def] using r.edges.map Prod.fst
    refine hp.nodup_iff.2 (r.nodup_map_rename hsources (List.forall_mem_map.2 fun e he => ?_))
    exact (g.anchored e he).1
  · have hp : (h.edges.map Edge.target).Perm ((g.edges.map Edge.target).map rename) := by
      simpa [Function.comp_def] using r.edges.map Prod.snd
    refine hp.nodup_iff.2 (r.nodup_map_rename htargets (List.forall_mem_map.2 fun e he => ?_))
    exact (g.anchored e he).2

/-! ## Violations and loose agents -/

theorem nodesOfKind_eq_singleton (r : Recast rename g h) {kind : NodeKind} {n : Node}
    (hn : g.nodesOfKind kind = [n]) :
    ∃ m, h.nodesOfKind kind = [m] ∧ m.id = rename n.id := by
  have hp := (r.nodes.filter (·.2.kind == kind)).map Prod.fst
  simp only [List.filter_map, List.map_map, Function.comp_def, Payload.kind_core] at hp
  change ((h.nodesOfKind kind).map Node.id).Perm
    ((g.nodesOfKind kind).map fun n => rename n.id) at hp
  rw [hn, List.map_singleton] at hp
  obtain ⟨m, hm, hid⟩ := List.map_eq_singleton_iff.1 hp.eq_singleton
  exact ⟨m, hm, hid⟩

theorem regular (r : Recast rename g h) {start finish : Node} (hg : g.Regular start finish) :
    ∃ first last, h.Regular first last := by
  obtain ⟨first, hs, hfirst⟩ := r.nodesOfKind_eq_singleton hg.starts
  obtain ⟨last, hf, hlast⟩ := r.nodesOfKind_eq_singleton hg.finishes
  refine ⟨first, last, hs, hf, ?_, ?_, r.acyclic hg.acyclic, r.unbranched hg.unbranched⟩
  · rw [hfirst, hlast]
    exact r.path hg.joined
  · intro m hm hk
    obtain ⟨n, hn, hid, hcore⟩ := r.exists_origin hm
    obtain ⟨hfrom, hto⟩ := hg.between n hn ((Node.kind_eq_of_core hcore).symm.trans hk)
    rw [hfirst, hlast, hid]
    exact ⟨r.path hfrom, r.path hto⟩

theorem violations_eq_nil (r : Recast rename g h) (hg : g.violations = []) :
    h.violations = [] := by
  rw [violations_eq_nil_iff_regular] at hg ⊢
  obtain ⟨start, finish, hg⟩ := hg
  exact r.regular hg

theorem looseAgents_eq_nil (r : Recast rename g h) (hg : g.looseAgents = []) :
    h.looseAgents = [] := by
  rw [looseAgents_eq_nil_iff] at hg ⊢
  intro m hm
  obtain ⟨n, hn, -, hcore⟩ := r.exists_origin hm
  rw [Node.kind_eq_of_core hcore]
  exact hg n hn

/-! ## Lines -/

theorem exists_row_of_map_eq {α : Type} {f f' : Node → α} {nodes groups : List Node}
    {start finish : Node} (hmap : nodes.map f = (row start groups finish).map f') :
    ∃ first mid last, nodes = row first mid last ∧ f first = f' start ∧
      mid.map f = groups.map f' ∧ f last = f' finish := by
  rw [row, List.map_cons, List.map_append, List.map_singleton] at hmap
  obtain ⟨first, rest, rfl, hfirst, hrest⟩ := List.map_eq_cons_iff.1 hmap
  obtain ⟨mid, tail, rfl, hmid, htail⟩ := List.map_eq_append_iff.1 hrest
  obtain ⟨last, rfl, hlast⟩ := List.map_eq_singleton_iff.1 htail
  exact ⟨first, mid, last, rfl, hfirst, hmid, hlast⟩

/-- The recast of a line is a line of the same steps: its nodes are found among those of the recast
in the order of the line, and so the edges lead from each to the next. -/
theorem exists_line (r : Recast rename g h) {start finish : Node} {groups : List Node}
    (hl : g.Line start groups finish) :
    ∃ first mid last, h.Line first mid last ∧
      (mid.map Node.payload).map Payload.core = (groups.map Node.payload).map Payload.core := by
  have hcovers := hl.covers.map fun n => (rename n.id, n.payload.core)
  -- The reordering fixes the row of the recast node by node, so the order of its lists is gone.
  obtain ⟨nodes, hp, hmap⟩ := exists_perm_map_eq (r.nodes.trans hcovers)
  obtain ⟨first, mid, last, rfl, hfirst, hmid, hlast⟩ := exists_row_of_map_eq hmap
  have hids : (row first mid last).map Node.id =
      ((row start groups finish).map Node.id).map rename := by
    simpa [Function.comp_def] using congrArg (List.map Prod.fst) hmap
  have hlinks := hl.links.map (Prod.map rename rename)
  rw [← neighbours_map, ← hids, List.map_map] at hlinks
  refine ⟨first, mid, last, ⟨?_, ?_, ?_, hp.symm, r.edges.trans hlinks⟩, ?_⟩
  · exact (Node.kind_eq_of_core (congrArg Prod.snd hfirst)).trans hl.starts
  · intro n hn
    have hm := List.mem_map_of_mem (f := fun n => (n.id, n.payload.core)) hn
    rw [hmid, List.mem_map] at hm
    obtain ⟨k, hk, heq⟩ := hm
    exact (Node.kind_eq_of_core (congrArg Prod.snd heq.symm)).trans (hl.steps k hk)
  · exact (Node.kind_eq_of_core (congrArg Prod.snd hlast)).trans hl.finishes
  · simpa [Function.comp_def] using congrArg (List.map Prod.snd) hmid

theorem steps_eq (r : Recast rename g h) (hp : g.review.passes = true) : h.steps = g.steps := by
  obtain ⟨start, groups, finish, hl⟩ := passes_iff_line.1 hp
  obtain ⟨first, mid, last, hl', hcore⟩ := r.exists_line hl
  refine hl'.steps_eq_of_becomes (Payload.forall₂_becomes_core.1 ?_)
  rw [hcore]
  exact Payload.forall₂_becomes_core.2 hl.becomes_steps

end Recast

theorem compile_recast (r : Recast rename g h) (m : Metadata) :
    (∃ d, g.compile m = .ok d ∧ h.compile m = .ok d) ∨
      (∃ violations others, g.compile m = .error (.structural violations) ∧
        h.compile m = .error (.structural others)) ∨
      ∃ violations agents others loose, g.compile m = .error (.unassigned violations agents) ∧
        h.compile m = .error (.unassigned others loose) := by
  -- Both ways: what the graph is free of the recast is free of, and the other way round. Handles
  -- do not come in, for a shared handle is a branching already.
  obtain ⟨back, rback⟩ := r.symm
  by_cases hv : g.violations = []
  · have hv' := r.violations_eq_nil hv
    by_cases ha : g.looseAgents = []
    · have hp := passes_iff.2 ⟨hv, ha⟩
      have hp' := passes_iff.2 ⟨hv', r.looseAgents_eq_nil ha⟩
      refine .inl ⟨_, compile_of_passes hp m, ?_⟩
      rw [compile_of_passes hp', r.steps_eq hp]
    · have ha' : h.looseAgents ≠ [] := fun hnil => ha (rback.looseAgents_eq_nil hnil)
      exact .inr (.inr ⟨_, _, _, _, compile_of_looseAgents hv ha m,
        compile_of_looseAgents hv' ha' m⟩)
  · have hv' : h.violations ≠ [] := fun hnil => hv (rback.violations_eq_nil hnil)
    exact .inr (.inl ⟨_, _, compile_of_violations hv m, compile_of_violations hv' m⟩)

/-! ## The sample in order, and two edges that share a handle or do not -/

/-- The sample drawn anew: every node in its place, with other names, labels and handles. -/
def redrawn : Graph where
  nodes := [⟨"n-s", {}, .start ⟨"Begin", some "here"⟩, by decide⟩,
    ⟨"n-draft", { x := 280.0 }, .stepGroup ⟨draftTitle, .sequential, some draftPurpose,
      ["writer", "editor"], ⟨"First", by decide⟩, some "two agents"⟩, by decide⟩,
    ⟨"n-check", { x := 560.0 }, .stepGroup ⟨checkTitle, .parallel, none, ["reviewer"],
      ⟨"Second", by decide⟩, none⟩, by decide⟩,
    ⟨"n-e", { x := 840.0 }, .finish ⟨"Done", none⟩, by decide⟩]
  edges := [⟨"one", ⟨"n-s", none, "n-draft", none⟩, some "smooth", by decide⟩,
    .plain "two" ⟨"n-draft", some "right", "n-check", some "left"⟩ (by decide),
    .plain "three" ⟨"n-check", none, "n-e", none⟩ (by decide)]
  nodes_distinct := by decide
  edges_distinct := by decide
  anchored := by decide

theorem redrawn_recast : Recast ("n-" ++ ·) sample redrawn where
  nodes := by decide
  edges := by decide

/-- Two edges from the start to the end, the second at a handle. -/
def doubled (handle : Option String) : Graph where
  nodes := [sampleStart, sampleFinish]
  edges := [.plain "upper" ⟨"s", none, "e", handle⟩ (by decide),
    .plain "lower" ⟨"s", handle, "e", none⟩ (by decide)]
  nodes_distinct := by decide
  edges_distinct := show ["upper", "lower"].Nodup by decide
  anchored := by simp [Edge.plain, sampleStart, sampleFinish]

theorem doubled_recast (handle other : Option String) :
    Recast id (doubled handle) (doubled other) where
  nodes := .refl _
  edges := .refl _

theorem compile_recast_redrawn :
    (Recast ("n-" ++ ·) sample redrawn ∧
      ∃ d, sample.compile sampleMetadata = .ok d ∧ redrawn.compile sampleMetadata = .ok d) ∧
    (Recast id (doubled none) (doubled (some "b")) ∧
      (doubled none).sharedHandles ≠ [] ∧ (doubled (some "b")).sharedHandles = [] ∧
      ∃ violations others,
        (doubled none).compile sampleMetadata = .error (.structural violations) ∧
          (doubled (some "b")).compile sampleMetadata = .error (.structural others)) := by
  have hok := sample_line.compile_eq sampleMetadata
  have hv : (doubled none).violations ≠ [] := by
    intro hv
    obtain ⟨_, _, hr⟩ := violations_eq_nil_iff_regular.1 hv
    exact absurd (unbranched_iff_nodup.1 hr.unbranched).1 (by decide)
  have hbad := compile_of_violations hv sampleMetadata
  refine ⟨⟨redrawn_recast, ?_⟩, doubled_recast _ _, by decide, by decide, ?_⟩
  · rcases compile_recast redrawn_recast sampleMetadata with
      hd | ⟨_, _, hc, -⟩ | ⟨_, _, _, _, hc, -⟩
    · exact hd
    · cases hok.symm.trans hc
    · cases hok.symm.trans hc
  · rcases compile_recast (doubled_recast none (some "b")) sampleMetadata with
      ⟨_, hc, -⟩ | hs | ⟨_, _, _, _, hc, -⟩
    · cases hbad.symm.trans hc
    · exact hs
    · cases hbad.symm.trans hc

end Graph
end WorkflowCanvas
